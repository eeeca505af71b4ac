import ClaudeCodeBridge.Model.PairingLogs

/-!
# The handles of terminals

What stands for a terminal is the last record of it among the complete lines of its log.
The cache, the compaction and a restart leave it as it is, and so does a line that a stop
has torn; as long as no line is appended to a torn one, an append is not lost.  So the
sequence numbers that are taken increase, and a terminal that has ended stays so.

The ladder: what is read (`terminal_state_eq`); what accesses leave (`perform_kept`);
what the calls append and return (`outcome_kept`); the runs (`terminals_run`).
-/

set_option autoImplicit false

namespace ClaudeCodeBridge.Analysis.Pairing

open Program
open Model.Pairing

variable {lengths : LineLengths} {s : PairingStore} {moment : Moment}

def logged (s : PairingStore) : List TerminalRecord := s.terminal_log.file.records

def standing (s : PairingStore) (id : TerminalId) : Option TerminalRecord :=
  latest? TerminalRecord.terminal_id id (logged s)

/-- The cache is what stands in the lines before its offset. -/
structure ReadsUpTo (cache : TerminalCache) (lines : List (Line TerminalRecord)) : Prop where
  state : cache.state = collapse TerminalRecord.terminal_id (lines.filterMap Line.record?)
  offset : cache.offset = bytes lines

def CacheKept (s : PairingStore) : Prop :=
  ∀ cache, s.cache = some cache →
    ∃ before after, s.terminal_log.file.lines = before ++ after ∧ ReadsUpTo cache before

theorem usable_cache_kept (h : CacheKept s) :
    ∃ before after, s.terminal_log.file.lines = before ++ after ∧
      ReadsUpTo s.usable_cache before := by
  have hfresh : ∃ before after, s.terminal_log.file.lines = before ++ after ∧
      ReadsUpTo ⟨[], s.terminal_log.identity, 0, 0⟩ before :=
    ⟨[], s.terminal_log.file.lines, rfl, rfl, rfl⟩
  unfold PairingStore.usable_cache
  dsimp only
  split
  · exact hfresh
  · rename_i cache hcache
    split
    · exact hfresh
    · exact h cache hcache

theorem read_on_kept (h : CacheKept s) : ReadsUpTo s.read_on s.terminal_log.file.lines := by
  obtain ⟨before, after, hlines, hstate, hoffset⟩ := usable_cache_kept h
  unfold PairingStore.read_on
  dsimp only
  rw [hoffset, hlines, linesFrom_bytes, hstate]
  refine ⟨?_, (bytes_append before after).symm⟩
  rw [List.filterMap_append]
  exact (List.foldl_append ..).symm

theorem terminal_state_eq (h : CacheKept s) :
    s.terminal_state_by_id = collapse TerminalRecord.terminal_id (logged s) :=
  (read_on_kept h).state

variable {id : TerminalId}

theorem find_terminal (h : CacheKept s) {record : TerminalRecord}
    (hfind : s.terminal_state_by_id.find? (fun record => record.terminal_id = id) = some record) :
    standing s id = some record := by
  unfold standing
  rw [terminal_state_eq h] at hfind
  apply (latest?_eq_some_iff _).mpr
  have hkey := List.find?_some hfind
  exact ⟨List.mem_of_find?_eq_some hfind, of_decide_eq_true hkey⟩

theorem mem_terminal_state (h : CacheKept s) {record : TerminalRecord}
    (hmem : record ∈ s.terminal_state_by_id) : standing s record.terminal_id = some record := by
  rw [terminal_state_eq h] at hmem
  exact (latest?_eq_some_iff _).mpr ⟨hmem, rfl⟩

def Access.terminal? : Access → Option TerminalRecord
  | .append_terminal record => some record
  | _ => none

def appended (accesses : List Access) : List TerminalRecord :=
  accesses.filterMap Access.terminal?

/-- No record of a terminal is appended to a torn line. -/
def TerminalsWhole (s : PairingStore) (accesses : List Access) : Prop :=
  appended accesses ≠ [] → s.terminal_log.file.rest = none

theorem records_terminal_lines (lengths : LineLengths) (records : List TerminalRecord) :
    (records.map lengths.terminal_line).filterMap Line.record? = records := by
  rw [List.filterMap_map]
  exact List.filterMap_some

theorem bytes_of_rest {ρ : Type} {file : LineFile ρ} (hrest : file.rest = none) :
    file.size = bytes file.lines := by
  unfold LineFile.size
  rw [hrest]
  exact Nat.add_zero _

theorem compact_kept (h : ReadsUpTo s.read_on s.terminal_log.file.lines) :
    CacheKept (s.compact lengths moment s.read_on) ∧
    logged (s.compact lengths moment s.read_on) =
      collapse TerminalRecord.terminal_id (logged s) := by
  have hrecords := records_terminal_lines lengths s.read_on.state
  have hlogged : logged (s.compact lengths moment s.read_on) =
      collapse TerminalRecord.terminal_id (logged s) := by
    rw [← show s.read_on.state = collapse TerminalRecord.terminal_id (logged s) from h.state]
    exact hrecords
  refine ⟨?_, hlogged⟩
  intro cache hcache
  rw [← Option.some.inj hcache]
  refine ⟨s.read_on.state.map lengths.terminal_line, [], (List.append_nil _).symm, ?_, ?_⟩
  · dsimp only
    rw [hrecords, h.state]
    exact (collapse_of_nodup _ (collapse_nodup _ _)).symm
  · exact bytes_of_rest rfl

theorem cache_access (h : CacheKept s) (a : Access) : CacheKept (s.access lengths moment a) := by
  cases a with
  | write_devices devices => exact h
  | append_pairing record => exact h
  | read_terminals =>
    have hread := read_on_kept h
    unfold PairingStore.access PairingStore.read_terminals
    dsimp only
    split
    · exact (compact_kept hread).1
    · intro cache hcache
      rw [← Option.some.inj hcache]
      exact ⟨s.terminal_log.file.lines, [], (List.append_nil _).symm, hread⟩
  | append_terminal record =>
    intro cache hcache
    obtain ⟨before, after, hlines, hreads⟩ := h cache hcache
    have hmore : ∃ line, (s.terminal_log.file.append (lengths.terminal_line record)).lines =
        s.terminal_log.file.lines ++ [line] := by
      unfold LineFile.append
      split
      · exact ⟨_, rfl⟩
      · exact ⟨_, rfl⟩
    obtain ⟨line, hline⟩ := hmore
    refine ⟨before, after ++ [line], ?_, hreads⟩
    rw [← List.append_assoc, ← hlines]
    exact hline

theorem standing_read (h : CacheKept s) (id : TerminalId) :
    standing (s.read_terminals lengths moment) id = standing s id := by
  have hread := read_on_kept h
  unfold PairingStore.read_terminals
  dsimp only
  split
  · unfold standing
    rw [(compact_kept hread).2]
    exact latest?_collapse _ _ _
  · rfl

theorem rest_read (hrest : s.terminal_log.file.rest = none) :
    (s.read_terminals lengths moment).terminal_log.file.rest = none := by
  unfold PairingStore.read_terminals
  dsimp only
  split
  · rfl
  · exact hrest

theorem standing_access (h : CacheKept s) (a : Access)
    (hwhole : TerminalsWhole s [a]) (id : TerminalId) :
    standing (s.access lengths moment a) id =
      (latest? TerminalRecord.terminal_id id (appended [a])).or (standing s id) := by
  cases a with
  | write_devices devices => rfl
  | append_pairing record => rfl
  | read_terminals => exact standing_read h id
  | append_terminal record =>
    have hrest : s.terminal_log.file.rest = none := hwhole (List.cons_ne_nil _ _)
    have hlogged : logged (s.access lengths moment (.append_terminal record)) =
        logged s ++ [record] := LineFile.records_append hrest
    unfold standing
    rw [hlogged]
    exact latest?_append_list _ _ _ _

theorem rest_access (a : Access) (hrest : s.terminal_log.file.rest = none) :
    (s.access lengths moment a).terminal_log.file.rest = none := by
  cases a with
  | write_devices devices => exact hrest
  | append_pairing record => exact hrest
  | read_terminals => exact rest_read hrest
  | append_terminal record => exact LineFile.rest_append

theorem appended_cons (a : Access) (accesses : List Access) :
    appended (a :: accesses) = appended [a] ++ appended accesses :=
  List.filterMap_append (l := [a])

theorem perform_kept (lengths : LineLengths) (moment : Moment) (accesses : List Access)
    (h : CacheKept s) (hwhole : TerminalsWhole s accesses) :
    CacheKept (s.perform lengths moment accesses) ∧
    ∀ id, standing (s.perform lengths moment accesses) id =
      (latest? TerminalRecord.terminal_id id (appended accesses)).or (standing s id) := by
  unfold PairingStore.perform
  induction accesses generalizing s with
  | nil => exact ⟨h, fun id => rfl⟩
  | cons a accesses ih =>
    have hfirst : TerminalsWhole s [a] := by
      intro hsome
      apply hwhole
      rw [appended_cons]
      exact List.append_ne_nil_of_left_ne_nil hsome _
    have hrest : TerminalsWhole (s.access lengths moment a) accesses := by
      intro hsome
      apply rest_access
      apply hwhole
      rw [appended_cons]
      exact List.append_ne_nil_of_right_ne_nil _ hsome
    obtain ⟨hcache, hstanding⟩ := ih (cache_access h a) hrest
    refine ⟨hcache, fun id => ?_⟩
    have hboth := appended_cons a accesses
    rw [List.foldl_cons, hstanding id, standing_access h a hfirst id, hboth,
      latest?_append_list, Option.or_assoc]

theorem tear_kept (lengths : LineLengths) (moment : Moment) (torn : Torn) (next : Option Access) :
    CacheKept (s.tear_next lengths moment torn next).restart ∧
    ∀ id, standing (s.tear_next lengths moment torn next).restart id = standing s id := by
  refine ⟨?_, fun id => ?_⟩
  · intro cache hcache
    have hnone : none = some cache := hcache
    cases hnone
  cases next with
  | none => rfl
  | some next =>
    cases next with
    | write_devices devices => rfl
    | append_pairing record => rfl
    | read_terminals => rfl
    | append_terminal record =>
      have hlogged : logged (s.tear_next lengths moment torn
          (some (.append_terminal record))).restart = logged s := LineFile.records_tear torn
      unfold standing
      rw [hlogged]

structure Continues (record updated : TerminalRecord) : Prop where
  terminal_id : updated.terminal_id = record.terminal_id
  last_input_seq : record.last_input_seq ≤ updated.last_input_seq
  ended : record.ended = true → updated.ended = true

structure AppendsKept (s : PairingStore) (accesses : List Access) : Prop where
  nodup : ((appended accesses).map TerminalRecord.terminal_id).Nodup
  continues : ∀ record ∈ appended accesses, record.terminal_id = s.drawn ∨
    ∃ before, standing s record.terminal_id = some before ∧ Continues before record

def Uses (id : TerminalId) : Event → Prop
  | .authenticated j => j = id
  | .input j _ => j = id
  | .output j => j = id
  | _ => False

/-- What the events of a call say about the records that stand, before and after it. -/
structure ReturnsKept (s : PairingStore) (accesses : List Access) (events : List Event) : Prop where
  used : ∀ id, ∀ e ∈ events, Uses id e →
    ∃ record, standing s id = some record ∧ record.ended = false
  input : ∀ id sequence, .input id sequence ∈ events →
    (∃ record, standing s id = some record ∧ record.last_input_seq < sequence) ∧
    ∃ record ∈ appended accesses, record.terminal_id = id ∧ sequence ≤ record.last_input_seq
  ended : ∀ id, .ended id ∈ events →
    (∃ record ∈ appended accesses, record.terminal_id = id ∧ record.ended = true) ∨
    ∃ record, standing s id = some record ∧ record.ended = true
  alone : events.Pairwise fun _ e => ∀ id, ¬ Uses id e

/-- A call does with terminals what it may. -/
structure OutcomeKept (s : PairingStore) (outcome : Outcome) : Prop where
  appends : AppendsKept s outcome.accesses
  returns : ∀ events, outcome.returns = .ok events → ReturnsKept s outcome.accesses events

/-- A call that appends nothing to the log of terminals, and uses none. -/
theorem outcome_elsewhere {outcome : Outcome} (hnone : appended outcome.accesses = [])
    (hevents : ∀ events, outcome.returns = .ok events →
      ∀ e ∈ events, ∃ code token reusable, e = .claimed code token reusable) :
    OutcomeKept s outcome := by
  have hnoevent : ∀ events, outcome.returns = .ok events → ∀ e ∈ events,
      (∀ id, ¬ Uses id e) ∧ (∀ id sequence, e ≠ .input id sequence) ∧ ∀ id, e ≠ .ended id := by
    intro events hok e he
    obtain ⟨code, token, reusable, rfl⟩ := hevents events hok e he
    refine ⟨fun id h => h, ?_, ?_⟩
    · intro id sequence h
      cases h
    · intro id h
      cases h
  refine ⟨?_, fun events hok => ?_⟩
  · refine ⟨?_, ?_⟩
    · rw [hnone]
      exact List.nodup_nil
    · intro record hmem
      rw [hnone] at hmem
      exact absurd hmem List.not_mem_nil
  · refine ⟨?_, ?_, ?_, ?_⟩
    · intro id e he huses
      exact absurd huses ((hnoevent events hok e he).1 id)
    · intro id sequence he
      exact absurd rfl ((hnoevent events hok _ he).2.1 id sequence)
    · intro id he
      exact absurd rfl ((hnoevent events hok _ he).2.2 id)
    · apply List.pairwise_of_forall_mem_list
      intro e _ e' he'
      exact (hnoevent events hok e' he').1

structure ChangeKept (record : TerminalRecord) (updated : Option TerminalRecord)
    (events : List Event) : Prop where
  continues : ∀ r ∈ updated, Continues record r
  used : ∀ id, ∀ e ∈ events, Uses id e → id = record.terminal_id ∧ record.ended = false
  input : ∀ id sequence, .input id sequence ∈ events → record.last_input_seq < sequence ∧
    ∃ r ∈ updated, sequence ≤ r.last_input_seq
  ended : ∀ id, .ended id ∈ events → id = record.terminal_id ∧
    ((∃ r ∈ updated, r.ended = true) ∨ record.ended = true)
  alone : events.length ≤ 1

theorem pairwise_of_length {α : Type} {R : α → α → Prop} {xs : List α} (h : xs.length ≤ 1) :
    xs.Pairwise R := by
  rcases xs with _ | ⟨x, _ | ⟨second, others⟩⟩
  · exact List.Pairwise.nil
  · exact List.pairwise_singleton R x
  · exact absurd h (by simp)

theorem appended_terminals (records : List TerminalRecord) :
    appended (.read_terminals :: records.map .append_terminal) = records := by
  unfold appended
  rw [List.filterMap_cons_none rfl, List.filterMap_map]
  exact List.filterMap_some

theorem terminal_record_ok (h : CacheKept s) {token : Token}
    {record : TerminalRecord} (hok : s.terminal_record id token = .ok record) :
    standing s id = some record ∧ record.terminal_id = id := by
  simp only [PairingStore.terminal_record, bind_ok, refuseIf_ok, valueOr_ok, pure_ok] at hok
  obtain ⟨found, hfind, _, _, rfl⟩ := hok
  have hstanding := find_terminal h hfind
  exact ⟨hstanding, (mem_of_latest? hstanding).2⟩

theorem on_terminal_kept (h : CacheKept s) {token : Token}
    {change : TerminalRecord → PairingStore.TerminalChange}
    (hchange : ∀ record updated events, change record = .ok (updated, events) →
      ChangeKept record updated events) :
    OutcomeKept s (s.on_terminal id token change) := by
  unfold PairingStore.on_terminal
  split
  · refine outcome_elsewhere rfl ?_
    intro events hok
    cases hok
  · rename_i updated events hok
    obtain ⟨record, hrecord, hchanged⟩ := bind_ok.mp hok
    obtain ⟨hstanding, hid⟩ := terminal_record_ok h hrecord
    obtain ⟨hcontinues, hused, hinput, hended, halone⟩ := hchange record updated events hchanged
    have happended := appended_terminals updated.toList
    have hmem : ∀ r, r ∈ appended (.read_terminals :: updated.toList.map .append_terminal) ↔
        r ∈ updated := by
      intro r
      rw [happended]
      exact Option.mem_toList
    refine ⟨⟨?_, ?_⟩, ?_⟩
    · rw [happended]
      cases updated with
      | none => exact List.nodup_nil
      | some r => exact List.nodup_singleton _
    · intro r hr
      have hr' := hcontinues r ((hmem r).mp hr)
      rw [hr'.terminal_id, hid]
      exact Or.inr ⟨record, hstanding, hr'⟩
    · intro events' hreturns
      rw [← Except.ok.inj hreturns]
      refine ⟨?_, ?_, ?_, pairwise_of_length halone⟩
      · intro j e he huses
        obtain ⟨hj, hopen⟩ := hused j e he huses
        rw [hj, hid]
        exact ⟨record, hstanding, hopen⟩
      · intro j sequence he
        obtain ⟨hlt, r, hr, hle⟩ := hinput j sequence he
        have hj : j = record.terminal_id := (hused j _ he rfl).1
        rw [hj, hid]
        refine ⟨⟨record, hstanding, hlt⟩, r, (hmem r).mpr hr, ?_, hle⟩
        rw [(hcontinues r hr).terminal_id, hid]
      · intro j he
        obtain ⟨hj, hends⟩ := hended j he
        rw [hj, hid]
        rcases hends with ⟨r, hr, hr'⟩ | hr'
        · refine Or.inl ⟨r, (hmem r).mpr hr, ?_, hr'⟩
          rw [(hcontinues r hr).terminal_id, hid]
        · exact Or.inr ⟨record, hstanding, hr'⟩

variable {now : ℕ} {record : TerminalRecord} {updated : Option TerminalRecord}
  {events : List Event}

theorem validated_open {u : Unit} (h : s.validate_terminal_record now record = .ok u) :
    record.ended = false := by
  simp only [PairingStore.validate_terminal_record, bind_ok, refuseIf_ok] at h
  obtain ⟨_, hrevoked, _, _, _, hclosed, _⟩ := h
  unfold TerminalRecord.ended
  rw [Bool.or_eq_false_iff]
  exact ⟨Bool.eq_false_iff.mpr hrevoked, Bool.eq_false_iff.mpr hclosed⟩

theorem change_used {e : Event} (hopen : record.ended = false)
    (hcontinues : ∀ r ∈ updated, Continues record r)
    (huses : ∀ id, Uses id e → id = record.terminal_id)
    (hinput : ∀ id sequence, e = .input id sequence → record.last_input_seq < sequence ∧
      ∃ r ∈ updated, sequence ≤ r.last_input_seq)
    (hended : ∀ id, e ≠ .ended id) : ChangeKept record updated [e] := by
  refine ⟨hcontinues, ?_, ?_, ?_, le_refl 1⟩
  · intro id e' he' h
    rw [List.mem_singleton.mp he'] at h
    exact ⟨huses id h, hopen⟩
  · intro id sequence he'
    exact hinput id sequence (List.mem_singleton.mp he').symm
  · intro id he'
    exact absurd (List.mem_singleton.mp he').symm (hended id)

theorem change_authenticated {resume_cursor : Option ℤ}
    (h : s.authenticated_terminal now resume_cursor record = .ok (updated, events)) :
    ChangeKept record updated events := by
  simp only [PairingStore.authenticated_terminal, bind_ok, pure_ok, Prod.mk.injEq] at h
  obtain ⟨_, hvalid, resumed, hresumed, rfl, rfl⟩ := h
  refine change_used (validated_open hvalid) ?_ (fun id h => h.symm) (fun id sequence h => ?_)
    (fun id h => ?_)
  · intro r hr
    have hr' : resumed = some r := hr
    unfold PairingStore.validate_resume_cursor at hresumed
    cases resume_cursor with
    | none =>
      simp only [bind_ok, refuseIf_ok, pure_ok] at hresumed
      obtain ⟨_, _, hnone⟩ := hresumed
      rw [hr'] at hnone
      cases hnone
    | some cursor =>
      simp only [bind_ok, refuseIf_ok, pure_ok] at hresumed
      obtain ⟨_, _, hsome⟩ := hresumed
      rw [hr'] at hsome
      rw [← Option.some.inj hsome]
      exact ⟨rfl, le_refl _, fun h => h⟩
  · cases h
  · cases h

theorem change_input {sequence : ℤ}
    (h : s.recorded_input now sequence record = .ok (updated, events)) :
    ChangeKept record updated events := by
  simp only [PairingStore.recorded_input, bind_ok, refuseIf_ok, pure_ok, Prod.mk.injEq] at h
  obtain ⟨_, hvalid, _, hlater, rfl, rfl⟩ := h
  have hlt : record.last_input_seq < sequence := not_le.mp hlater
  refine change_used (validated_open hvalid) ?_ (fun id h => h.symm) ?_ (fun id h => ?_)
  · intro r hr
    rw [← Option.some.inj hr]
    exact ⟨rfl, le_of_lt hlt, fun h => h⟩
  · intro id sequence' he
    obtain ⟨_, hsequence⟩ := Event.input.inj he
    rw [← hsequence]
    exact ⟨hlt, _, rfl, le_refl _⟩
  · cases h

theorem change_output {sequence : ℤ}
    (h : s.recorded_output now sequence record = .ok (updated, events)) :
    ChangeKept record updated events := by
  simp only [PairingStore.recorded_output, bind_ok] at h
  obtain ⟨_, hvalid, h⟩ := h
  have hused : ∀ r : Option TerminalRecord, (∀ x ∈ r, Continues record x) →
      ChangeKept record r [.output record.terminal_id] := by
    intro r hr
    refine change_used (validated_open hvalid) hr (fun id h => h.symm)
      (fun id sequence h => ?_) (fun id h => ?_)
    · cases h
    · cases h
  split at h
  · simp only [pure_ok, Prod.mk.injEq] at h
    obtain ⟨rfl, rfl⟩ := h
    exact hused none fun x hx => by cases hx
  · simp only [pure_ok, Prod.mk.injEq] at h
    obtain ⟨rfl, rfl⟩ := h
    refine hused _ fun x hx => ?_
    rw [← Option.some.inj hx]
    exact ⟨rfl, le_refl _, fun h => h⟩

theorem change_disconnected (h : s.disconnected now record = .ok (updated, events)) :
    ChangeKept record updated events := by
  simp only [PairingStore.disconnected, bind_ok, pure_ok, Prod.mk.injEq] at h
  obtain ⟨_, _, rfl, rfl⟩ := h
  refine ⟨?_, ?_, ?_, ?_, Nat.zero_le 1⟩
  · intro r hr
    rw [← Option.some.inj hr]
    exact ⟨rfl, le_refl _, fun h => h⟩
  · intro id e he
    exact absurd he List.not_mem_nil
  · intro id sequence he
    exact absurd he List.not_mem_nil
  · intro id he
    exact absurd he List.not_mem_nil

theorem change_closed (h : PairingStore.closed now record = .ok (updated, events)) :
    ChangeKept record updated events := by
  have hkept : ∀ r : Option TerminalRecord, (∀ x ∈ r, Continues record x) →
      ((∃ x ∈ r, x.ended = true) ∨ record.ended = true) →
      ChangeKept record r [.ended record.terminal_id] := by
    intro r hr hends
    refine ⟨hr, ?_, ?_, ?_, le_refl 1⟩
    · intro id e he huses
      rw [List.mem_singleton.mp he] at huses
      exact huses.elim
    · intro id sequence he
      cases List.mem_singleton.mp he
    · intro id he
      exact ⟨Event.ended.inj (List.mem_singleton.mp he), hends⟩
  unfold PairingStore.closed at h
  split at h
  · rename_i hclosed
    obtain ⟨rfl, rfl⟩ := Prod.mk.inj (Except.ok.inj h)
    refine hkept none (fun x hx => by cases hx) (Or.inr ?_)
    unfold TerminalRecord.ended
    rw [hclosed]
    exact Bool.or_true _
  · obtain ⟨rfl, rfl⟩ := Prod.mk.inj (Except.ok.inj h)
    have hends : TerminalRecord.ended { record with closed_at := some now } = true := Bool.or_true _
    refine hkept _ (fun x hx => ?_) (Or.inl ⟨_, rfl, hends⟩)
    rw [← Option.some.inj hx]
    exact ⟨rfl, le_refl _, fun _ => hends⟩

theorem create_terminal_kept (project_id device_id : Text) (target_summary : TargetSummary)
    (expires_seconds : ℤ) :
    OutcomeKept s (s.create_terminal now project_id device_id target_summary expires_seconds) := by
  refine ⟨⟨List.nodup_singleton _, ?_⟩, ?_⟩
  · intro r hr
    rw [List.mem_singleton.mp hr]
    exact Or.inl rfl
  · intro events hok
    rw [← Except.ok.inj hok]
    refine ⟨?_, ?_, ?_, List.Pairwise.nil⟩
    · intro id e he
      exact absurd he List.not_mem_nil
    · intro id sequence he
      exact absurd he List.not_mem_nil
    · intro id he
      exact absurd he List.not_mem_nil

theorem revoke_terminals_kept (h : CacheKept s) (now : ℕ) (selected : TerminalRecord → Bool) :
    AppendsKept s (s.revoke_terminals now selected).1 ∧
    ReturnsKept s (s.revoke_terminals now selected).1 (s.revoke_terminals now selected).2 := by
  have happended : appended (s.revoke_terminals now selected).1 =
      ((s.terminal_state_by_id.filter selected).filter fun record => !record.ended).map
        fun record => record.revoke now := by
    unfold PairingStore.revoke_terminals appended
    dsimp only
    rw [List.filterMap_cons_none rfl, List.filterMap_map]
    have hrevoke := List.filterMap_eq_map (f := fun record : TerminalRecord => record.revoke now)
    exact congrFun hrevoke _
  have hrevoked : ∀ r, r ∈ appended (s.revoke_terminals now selected).1 →
      ∃ record ∈ s.terminal_state_by_id, record.revoke now = r := by
    intro r hr
    rw [happended, List.mem_map] at hr
    obtain ⟨record, hmem, hrecord⟩ := hr
    exact ⟨record, List.mem_of_mem_filter (List.mem_of_mem_filter hmem), hrecord⟩
  refine ⟨⟨?_, ?_⟩, ?_, ?_, ?_, ?_⟩
  · rw [happended, List.map_map, terminal_state_eq h]
    have hnodup := collapse_nodup TerminalRecord.terminal_id (logged s)
    refine List.Sublist.nodup ?_ hnodup
    exact (List.filter_sublist.trans List.filter_sublist).map TerminalRecord.terminal_id
  · intro r hr
    obtain ⟨record, hmem, rfl⟩ := hrevoked r hr
    exact Or.inr ⟨record, mem_terminal_state h hmem, rfl, le_refl _, fun _ => rfl⟩
  · intro id e he huses
    obtain ⟨record, _, rfl⟩ := List.mem_map.mp he
    exact huses.elim
  · intro id sequence he
    obtain ⟨record, _, hnever⟩ := List.mem_map.mp he
    cases hnever
  · intro id he
    obtain ⟨record, hmem, hid⟩ := List.mem_map.mp he
    have hselected := List.mem_of_mem_filter hmem
    rw [← Event.ended.inj hid]
    cases hended : record.ended with
    | true => exact Or.inr ⟨record, mem_terminal_state h hselected, hended⟩
    | false =>
      refine Or.inl ⟨record.revoke now, ?_, rfl, rfl⟩
      rw [happended]
      apply List.mem_map_of_mem
      rw [List.mem_filter]
      exact ⟨hmem, by rw [hended]; rfl⟩
  · apply List.pairwise_of_forall_mem_list
    intro e _ e' he' id huses
    obtain ⟨record, _, rfl⟩ := List.mem_map.mp he'
    exact huses.elim

theorem revoke_device_kept (h : CacheKept s) (device_id : Text) :
    OutcomeKept s (s.revoke_device now device_id) := by
  unfold PairingStore.revoke_device
  split
  · refine outcome_elsewhere rfl ?_
    intro events hok
    cases hok
  · obtain ⟨happends, hreturns⟩ := revoke_terminals_kept h now
      fun record => record.device_id = device_id
    refine ⟨⟨happends.nodup, happends.continues⟩, ?_⟩
    intro events hok
    rw [← Except.ok.inj hok]
    exact ⟨hreturns.used, hreturns.input, hreturns.ended, hreturns.alone⟩

theorem revoke_host_terminals_kept (h : CacheKept s) (device_id client_session_id : Text) :
    OutcomeKept s (s.revoke_host_terminals now device_id client_session_id) := by
  unfold PairingStore.revoke_host_terminals
  split
  · refine outcome_elsewhere rfl ?_
    intro events hok
    cases hok
  · refine ⟨(revoke_terminals_kept h now _).1, ?_⟩
    intro events hok
    rw [← Except.ok.inj hok]
    exact (revoke_terminals_kept h now _).2

theorem claim_pairing_returns (s : PairingStore) (now : ℕ) (code : Token) (device_id : Text) :
    appended (s.claim_pairing now code device_id).accesses = [] ∧
    ∀ events, (s.claim_pairing now code device_id).returns = .ok events →
      ∃ reusable, events = [.claimed code s.drawn reusable] := by
  unfold PairingStore.claim_pairing
  split
  · exact ⟨rfl, fun events hok => by cases hok⟩
  · split
    · exact ⟨rfl, fun events hok => by cases hok⟩
    · split
      · exact ⟨rfl, fun events hok => by cases hok⟩
      · exact ⟨rfl, fun events hok => ⟨_, (Except.ok.inj hok).symm⟩⟩

theorem revoke_pairing_returns (s : PairingStore) (now : ℕ) (pairing_id : PairingId)
    (reason : Text) :
    appended (s.revoke_pairing now pairing_id reason).accesses = [] ∧
    ∀ events, (s.revoke_pairing now pairing_id reason).returns = .ok events → events = [] := by
  unfold PairingStore.revoke_pairing
  split
  · exact ⟨rfl, fun events hok => by cases hok⟩
  · split
    · exact ⟨rfl, fun events hok => (Except.ok.inj hok).symm⟩
    · split
      · exact ⟨rfl, fun events hok => (Except.ok.inj hok).symm⟩
      · exact ⟨rfl, fun events hok => (Except.ok.inj hok).symm⟩

theorem authenticate_device_returns (s : PairingStore) (now : ℕ) (token : Token)
    (required_scopes : List Text) :
    appended (s.authenticate_device now token required_scopes).accesses = [] ∧
    ∀ events, (s.authenticate_device now token required_scopes).returns = .ok events →
      events = [] := by
  unfold PairingStore.authenticate_device
  split
  · exact ⟨rfl, fun events hok => by cases hok⟩
  · exact ⟨rfl, fun events hok => (Except.ok.inj hok).symm⟩

theorem outcome_silent {outcome : Outcome} (hnone : appended outcome.accesses = [])
    (hevents : ∀ events, outcome.returns = .ok events → events = []) : OutcomeKept s outcome := by
  refine outcome_elsewhere hnone ?_
  intro events hok e he
  rw [hevents events hok] at he
  exact absurd he List.not_mem_nil

theorem outcome_kept (h : CacheKept s) (now : ℕ) (request : StoreRequest) :
    OutcomeKept s (s.outcome now request) := by
  cases request with
  | create_pairing project_id gateway_url route_provider scopes expires_seconds reusable_claims =>
    exact outcome_silent rfl fun events hok => (Except.ok.inj hok).symm
  | revoke_pairing pairing_id reason =>
    obtain ⟨hnone, hevents⟩ := revoke_pairing_returns s now pairing_id reason
    exact outcome_silent hnone hevents
  | claim_pairing code device_id =>
    obtain ⟨hnone, hevents⟩ := claim_pairing_returns s now code device_id
    refine outcome_elsewhere hnone ?_
    intro events hok e he
    obtain ⟨reusable, hclaimed⟩ := hevents events hok
    rw [hclaimed] at he
    exact ⟨code, s.drawn, reusable, List.mem_singleton.mp he⟩
  | authenticate_device token required_scopes =>
    obtain ⟨hnone, hevents⟩ := authenticate_device_returns s now token required_scopes
    exact outcome_silent hnone hevents
  | revoke_device device_id => exact revoke_device_kept h device_id
  | create_terminal project_id device_id target_summary expires_seconds =>
    exact create_terminal_kept project_id device_id target_summary expires_seconds
  | authenticate_terminal id token resume_cursor =>
    exact on_terminal_kept h fun record updated events hok => change_authenticated hok
  | record_input id token sequence =>
    exact on_terminal_kept h fun record updated events hok => change_input hok
  | record_output id token sequence =>
    exact on_terminal_kept h fun record updated events hok => change_output hok
  | mark_disconnected id token =>
    exact on_terminal_kept h fun record updated events hok => change_disconnected hok
  | close_terminal id token =>
    exact on_terminal_kept h fun record updated events hok => change_closed hok
  | revoke_host_terminals device_id client_session_id =>
    exact revoke_host_terminals_kept h device_id client_session_id

/-- The sequence numbers that are taken for a terminal increase. -/
def InputsIncrease (events : List Event) : Prop :=
  events.Pairwise fun e e' => ∀ id sequence sequence',
    e = .input id sequence → e' = .input id sequence' → sequence < sequence'

/-- A terminal that is closed or revoked is not used any more. -/
def EndedStays (events : List Event) : Prop :=
  events.Pairwise fun e e' => ∀ id, e = .ended id → ¬ Uses id e'

structure TerminalsKept (s : PairingStore) : Prop where
  cache : CacheKept s
  drawn : ∀ id record, standing s id = some record → id < s.drawn
  inputs : ∀ id sequence, .input id sequence ∈ s.events →
    ∃ record, standing s id = some record ∧ sequence ≤ record.last_input_seq
  ended : ∀ id, .ended id ∈ s.events → ∃ record, standing s id = some record ∧ record.ended = true
  increase : InputsIncrease s.events
  stays : EndedStays s.events

structure StandsAfter (s : PairingStore) (accesses : List Access)
    (after : TerminalId → Option TerminalRecord) : Prop where
  continues : ∀ id record, standing s id = some record →
    ∃ later, after id = some later ∧ record.last_input_seq ≤ later.last_input_seq ∧
      (record.ended = true → later.ended = true)
  appended : ∀ record ∈ appended accesses, after record.terminal_id = some record
  drawn : ∀ id record, after id = some record → id < s.drawn + 1

variable {accesses : List Access}

theorem stands_after {after : TerminalId → Option TerminalRecord}
    (h : TerminalsKept s) (happends : AppendsKept s accesses) (hafter : ∀ id, after id =
      (latest? TerminalRecord.terminal_id id (appended accesses)).or (standing s id)) :
    StandsAfter s accesses after := by
  refine ⟨?_, ?_, ?_⟩
  · intro id record hrecord
    rw [hafter id]
    cases hlatest : latest? TerminalRecord.terminal_id id (appended accesses) with
    | none => exact ⟨record, hrecord, le_refl _, fun h => h⟩
    | some later =>
      obtain ⟨hmem, hid⟩ := mem_of_latest? hlatest
      refine ⟨later, rfl, ?_⟩
      rcases happends.continues later hmem with hfresh | ⟨before, hbefore, hcontinues⟩
      · -- a new handle has a number of its own
        have hlt := h.drawn id record hrecord
        rw [← hid, hfresh] at hlt
        exact absurd hlt (lt_irrefl _)
      · rw [hid, hrecord] at hbefore
        rw [← Option.some.inj hbefore] at hcontinues
        exact ⟨hcontinues.last_input_seq, hcontinues.ended⟩
  · intro record hmem
    rw [hafter, latest?_of_mem _ happends.nodup hmem]
    rfl
  · intro id record hrecord
    rw [hafter id] at hrecord
    rcases Option.or_eq_some_iff.mp hrecord with hlatest | ⟨_, hbefore⟩
    · obtain ⟨hmem, hid⟩ := mem_of_latest? hlatest
      rcases happends.continues record hmem with hfresh | ⟨before, hbefore, _⟩
      · rw [← hid, hfresh]
        exact Nat.lt_succ_self _
      · have hlt := h.drawn _ before hbefore
        rw [← hid]
        exact Nat.lt_succ_of_lt hlt
    · have hlt := h.drawn id record hbefore
      exact Nat.lt_succ_of_lt hlt

theorem AppendsKept.take (h : AppendsKept s accesses) (n : ℕ) :
    AppendsKept s (accesses.take n) := by
  have hsub : (appended (accesses.take n)).Sublist (appended accesses) :=
    (List.take_sublist n accesses).filterMap _
  refine ⟨h.nodup.sublist (hsub.map _), ?_⟩
  intro record hmem
  exact h.continues record (hsub.subset hmem)

def performed (s : PairingStore) : StoreStep → List Access
  | .call moment request => (s.outcome moment.now request).accesses
  | .stop moment request done _ => (s.outcome moment.now request).accesses.take done

/-- In no step a record of a terminal is appended to a torn line. -/
def TerminalsWholeRun (lengths : LineLengths) : List StoreStep → PairingStore → Prop
  | [], _ => True
  | c :: steps, s =>
    TerminalsWhole s (performed s c) ∧ TerminalsWholeRun lengths steps (s.step lengths c)

instance (s : PairingStore) (accesses : List Access) : Decidable (TerminalsWhole s accesses) :=
  inferInstanceAs (Decidable (appended accesses ≠ [] → s.terminal_log.file.rest = none))

instance decidableTerminalsWholeRun (lengths : LineLengths) :
    (steps : List StoreStep) → (s : PairingStore) → Decidable (TerminalsWholeRun lengths steps s)
  | [], _ => isTrue trivial
  | _ :: steps, _ =>
    have := decidableTerminalsWholeRun lengths steps
    inferInstanceAs (Decidable (_ ∧ _))

theorem events_kept {events : List Event} (h : TerminalsKept s)
    (hreturns : ReturnsKept s accesses events) :
    InputsIncrease (s.events ++ events) ∧ EndedStays (s.events ++ events) := by
  have hunused : events.Pairwise fun _ e => ∀ id, ¬ Uses id e := hreturns.alone
  refine ⟨List.pairwise_append.mpr ⟨h.increase, ?_, ?_⟩, List.pairwise_append.mpr ⟨h.stays, ?_, ?_⟩⟩
  · refine hunused.imp ?_
    intro e e' hno id sequence sequence' _ he'
    rw [he'] at hno
    exact absurd rfl (hno id)
  · intro e he e' he' id sequence sequence' hinput hinput'
    rw [hinput] at he
    rw [hinput'] at he'
    obtain ⟨record, hrecord, hle⟩ := h.inputs id sequence he
    obtain ⟨⟨record', hrecord', hlt⟩, _⟩ := hreturns.input id sequence' he'
    rw [hrecord] at hrecord'
    rw [← Option.some.inj hrecord'] at hlt
    exact lt_of_le_of_lt hle hlt
  · refine hunused.imp ?_
    intro e e' hno id _
    exact hno id
  · intro e he e' he' id hended huses
    rw [hended] at he
    obtain ⟨record, hrecord, htrue⟩ := h.ended id he
    obtain ⟨record', hrecord', hfalse⟩ := hreturns.used id e' he' huses
    rw [hrecord] at hrecord'
    rw [← Option.some.inj hrecord', htrue] at hfalse
    exact Bool.noConfusion hfalse

theorem claims_after {after : TerminalId → Option TerminalRecord}
    (h : TerminalsKept s) (hafter : StandsAfter s accesses after) :
    (∀ id sequence, .input id sequence ∈ s.events →
      ∃ record, after id = some record ∧ sequence ≤ record.last_input_seq) ∧
    ∀ id, .ended id ∈ s.events → ∃ record, after id = some record ∧ record.ended = true := by
  refine ⟨?_, ?_⟩
  · intro id sequence he
    obtain ⟨record, hrecord, hle⟩ := h.inputs id sequence he
    obtain ⟨later, hlater, hmore, _⟩ := hafter.continues id record hrecord
    exact ⟨later, hlater, le_trans hle hmore⟩
  · intro id he
    obtain ⟨record, hrecord, htrue⟩ := h.ended id he
    obtain ⟨later, hlater, _, hends⟩ := hafter.continues id record hrecord
    exact ⟨later, hlater, hends htrue⟩

theorem perform_drawn (lengths : LineLengths) (moment : Moment) (accesses : List Access) :
    (s.perform lengths moment accesses).drawn = s.drawn ∧
    (s.perform lengths moment accesses).events = s.events := by
  unfold PairingStore.perform
  induction accesses generalizing s with
  | nil => exact ⟨rfl, rfl⟩
  | cons a accesses ih =>
    have hone : (s.access lengths moment a).drawn = s.drawn ∧
        (s.access lengths moment a).events = s.events := by
      cases a with
      | write_devices devices | append_pairing record | append_terminal record => exact ⟨rfl, rfl⟩
      | read_terminals =>
        unfold PairingStore.access PairingStore.read_terminals
        dsimp only
        split
        · exact ⟨rfl, rfl⟩
        · exact ⟨rfl, rfl⟩
    obtain ⟨hdrawn, hevents⟩ := @ih (s.access lengths moment a)
    exact ⟨hdrawn.trans hone.1, hevents.trans hone.2⟩

theorem tear_drawn (lengths : LineLengths) (moment : Moment) (torn : Torn) (next : Option Access) :
    (s.tear_next lengths moment torn next).restart.drawn = s.drawn + 1 ∧
    (s.tear_next lengths moment torn next).restart.events = s.events := by
  cases next with
  | none => exact ⟨rfl, rfl⟩
  | some next =>
    cases next with
    | write_devices devices => exact ⟨rfl, rfl⟩
    | append_pairing record | read_terminals | append_terminal record => exact ⟨rfl, rfl⟩

theorem terminals_start : TerminalsKept .empty := by
  refine ⟨?_, ?_, ?_, ?_, List.Pairwise.nil, List.Pairwise.nil⟩
  · intro cache hcache
    cases hcache
  · intro id record hrecord
    cases hrecord
  · intro id sequence he
    exact absurd he List.not_mem_nil
  · intro id he
    exact absurd he List.not_mem_nil

theorem terminals_after {p : PairingStore} (h : TerminalsKept s)
    (hafter : StandsAfter s accesses (standing p)) (hcache : CacheKept p)
    (hdrawn : p.drawn = s.drawn + 1) (hevents : p.events = s.events) : TerminalsKept p := by
  obtain ⟨hinputs, hended⟩ := claims_after h hafter
  have hnumbers := hafter.drawn
  have hincrease := h.increase
  have hstays := h.stays
  rw [← hevents] at hinputs hended hincrease hstays
  rw [← hdrawn] at hnumbers
  exact ⟨hcache, hnumbers, hinputs, hended, hincrease, hstays⟩

theorem terminals_return {p : PairingStore} {outcome : Outcome} (h : TerminalsKept s)
    (hafter : StandsAfter s outcome.accesses (standing p)) (hcache : CacheKept p)
    (hdrawn : p.drawn = s.drawn) (hevents : p.events = s.events)
    (hreturns : ∀ events, outcome.returns = .ok events → ReturnsKept s outcome.accesses events) :
    TerminalsKept (p.return_call outcome.returns) := by
  have hnext : p.drawn + 1 = s.drawn + 1 := by rw [hdrawn]
  unfold PairingStore.return_call
  split
  · exact terminals_after h hafter hcache hnext hevents
  · rename_i events hok
    have hkept := hreturns events hok
    obtain ⟨hincrease, hstays⟩ := events_kept h hkept
    obtain ⟨hinputs, hended⟩ := claims_after h hafter
    have hnumbers := hafter.drawn
    rw [← hevents] at hinputs hended hincrease hstays
    rw [← hnext] at hnumbers
    refine ⟨hcache, hnumbers, ?_, ?_, hincrease, hstays⟩
    · intro id sequence he
      rcases List.mem_append.mp he with hbefore | hnew
      · exact hinputs id sequence hbefore
      · obtain ⟨_, record, hmem, hid, hle⟩ := hkept.input id sequence hnew
        have hstands := hafter.appended record hmem
        rw [hid] at hstands
        exact ⟨record, hstands, hle⟩
    · intro id he
      rcases List.mem_append.mp he with hbefore | hnew
      · exact hended id hbefore
      · rcases hkept.ended id hnew with ⟨record, hmem, hid, htrue⟩ | ⟨record, hrecord, htrue⟩
        · have hstands := hafter.appended record hmem
          rw [hid] at hstands
          exact ⟨record, hstands, htrue⟩
        · obtain ⟨later, hlater, _, hends⟩ := hafter.continues id record hrecord
          exact ⟨later, hlater, hends htrue⟩

theorem terminals_step (h : TerminalsKept s) (c : StoreStep)
    (hwhole : TerminalsWhole s (performed s c)) : TerminalsKept (s.step lengths c) := by
  cases c with
  | call moment request =>
    obtain ⟨happends, hreturns⟩ := outcome_kept h.cache moment.now request
    obtain ⟨hcache, hstanding⟩ := perform_kept lengths moment _ h.cache hwhole
    obtain ⟨hdrawn, hevents⟩ := perform_drawn (s := s) lengths moment
      (performed s (.call moment request))
    exact terminals_return h (stands_after h happends hstanding) hcache hdrawn hevents hreturns
  | stop moment request done torn =>
    have happends := (outcome_kept h.cache moment.now request).appends
    obtain ⟨hcache, hstanding⟩ := perform_kept lengths moment _ h.cache hwhole
    obtain ⟨hdrawn, hevents⟩ := perform_drawn (s := s) lengths moment
      (performed s (.stop moment request done torn))
    have hafter := stands_after h (happends.take done) hstanding
    obtain ⟨hcache', hstanding'⟩ := tear_kept lengths moment torn
      (s.outcome moment.now request).accesses[done]?
    obtain ⟨hdrawn', hevents'⟩ := tear_drawn lengths moment torn
      (s.outcome moment.now request).accesses[done]?
    rw [← funext hstanding'] at hafter
    apply terminals_after h hafter hcache'
    · rw [hdrawn', hdrawn]
    · rw [hevents', hevents]

theorem terminals_run (steps : List StoreStep) (h : TerminalsKept s)
    (hwhole : TerminalsWholeRun lengths steps s) : TerminalsKept (s.run lengths steps) := by
  unfold PairingStore.run
  induction steps generalizing s with
  | nil => exact h
  | cons c steps ih => exact ih (terminals_step h c hwhole.1) hwhole.2

theorem cache_run (steps : List StoreStep) (h : CacheKept s) : CacheKept (s.run lengths steps) := by
  unfold PairingStore.run
  induction steps generalizing s with
  | nil => exact h
  | cons c steps ih =>
    apply ih
    cases c with
    | call moment request =>
      have hperform : CacheKept (s.perform lengths moment (s.outcome moment.now request).accesses) :=
        List.foldlRecOn _ _ h fun _ hs a _ => cache_access hs a
      show CacheKept (PairingStore.return_call _ (s.outcome moment.now request).returns)
      unfold PairingStore.return_call
      split <;> exact hperform
    | stop =>
      intro cache hcache
      cases hcache

/-- **The map of terminals is what the log says**, after any calls, compactions and stops, with torn
lines or without; and a read leaves the last record of every terminal in the log.
SOURCE: lib/mobile_gateway/pairing.py:948-1003, 1325-1368 -/
theorem terminal_state_is_log (lengths : LineLengths) (steps : List StoreStep) :
    let s := PairingStore.empty.run lengths steps
    s.terminal_state_by_id = collapse TerminalRecord.terminal_id (logged s) ∧
      ∀ moment id, standing (s.read_terminals lengths moment) id = standing s id := by
  intro s
  have hcache : CacheKept s := cache_run steps terminals_start.cache
  exact ⟨terminal_state_eq hcache, fun moment id => standing_read hcache id⟩

end ClaudeCodeBridge.Analysis.Pairing
