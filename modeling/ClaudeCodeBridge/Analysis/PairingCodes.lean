import ClaudeCodeBridge.Analysis.TerminalHandles

/-!
# The codes of pairings

What is read of the log of pairings includes a last line without a newline, so two lists of
records are kept: with it and without it, since the next line that is appended to it makes
it unreadable.  In both, a code that was claimed stands as claimed, as long as no line is
appended to a torn one.

The ladder: the records of a code (`codes_append`); what accesses leave (`file_tear`,
`pairing_log_perform`); what the calls append and return (`pairings_outcome`); the runs
(`codes_and_handles_kept`).
-/

set_option autoImplicit false

namespace ClaudeCodeBridge.Analysis.Pairing

open Program
open Model.Pairing

variable {lengths : LineLengths} {s : PairingStore} {moment : Moment} {drawn : ℕ}
  {events : List Event} {log : List PairingRecord} {record : PairingRecord}

structure CodesKept (drawn : ℕ) (events : List Event) (log : List PairingRecord) : Prop where
  numbers : ∀ record ∈ log, record.token_hash = record.pairing_id ∧
    record.pairing_id < drawn ∧ record.one_line = true
  claimed : ∀ code token reusable_claims, .claimed code token reusable_claims ∈ events →
    ∃ record, latest? PairingRecord.pairing_id code log = some record ∧
      record.claimed = true ∧ record.reusable_claims = reusable_claims

inductive MayAppend (drawn : ℕ) (log : List PairingRecord) (record : PairingRecord) : Prop where
  | created (pairing_id : record.pairing_id = drawn) (token_hash : record.token_hash = drawn)
  | updated (before : PairingRecord)
      (standing : latest? PairingRecord.pairing_id record.pairing_id log = some before)
      (token_hash : record.token_hash = before.token_hash)
      (reusable_claims : record.reusable_claims = before.reusable_claims)
      (claimed : before.claimed = true → record.claimed = true)

theorem CodesKept.more (h : CodesKept drawn events log) : CodesKept (drawn + 1) events log := by
  refine ⟨?_, h.claimed⟩
  intro record hmem
  obtain ⟨htoken, hlt, hline⟩ := h.numbers record hmem
  exact ⟨htoken, Nat.lt_succ_of_lt hlt, hline⟩

theorem CodesKept.code {code : Token} (h : CodesKept drawn events log)
    (hmem : record ∈ collapse PairingRecord.pairing_id log) (hcode : record.token_hash = code) :
    latest? PairingRecord.pairing_id code log = some record := by
  have hstands : latest? PairingRecord.pairing_id record.pairing_id log = some record :=
    (latest?_eq_some_iff _).mpr ⟨hmem, rfl⟩
  obtain ⟨htoken, _, _⟩ := h.numbers record (mem_of_latest? hstands).1
  rw [← hcode, htoken]
  exact hstands

theorem codes_append (h : CodesKept drawn events log) (hmay : MayAppend drawn log record)
    (hline : record.one_line = true) : CodesKept (drawn + 1) events (log ++ [record]) := by
  refine ⟨?_, ?_⟩
  · intro r hr
    rcases List.mem_append.mp hr with hbefore | hnew
    · exact h.more.numbers r hbefore
    · rw [List.mem_singleton.mp hnew]
      cases hmay with
      | created hid htoken =>
        rw [hid, htoken]
        exact ⟨rfl, Nat.lt_succ_self _, hline⟩
      | updated before hstanding htoken _ _ =>
        obtain ⟨hmem, hid⟩ := mem_of_latest? hstanding
        obtain ⟨hsame, hlt, _⟩ := h.numbers before hmem
        rw [htoken, ← hid]
        exact ⟨hsame, Nat.lt_succ_of_lt hlt, hline⟩
  · intro code token reusable_claims he
    obtain ⟨standing, hstands, hclaimed, hreusable⟩ := h.claimed code token reusable_claims he
    rw [latest?_append]
    split
    · rename_i hid
      cases hmay with
      | created hnew _ =>
        -- a new code has a number of its own
        obtain ⟨hmem, hcode⟩ := mem_of_latest? hstands
        obtain ⟨_, hlt, _⟩ := h.numbers standing hmem
        rw [hcode, ← hid, hnew] at hlt
        exact absurd hlt (lt_irrefl _)
      | updated before hbefore _ hflag hmono =>
        rw [hid, hstands] at hbefore
        rw [← Option.some.inj hbefore] at hflag hmono
        exact ⟨record, rfl, hmono hclaimed, hflag.trans hreusable⟩
    · exact ⟨standing, hstands, hclaimed, hreusable⟩

/-- What can be read of the log of pairings. -/
def readable (file : LineFile PairingRecord) : List PairingRecord :=
  file.records ++ file.rest_record.toList

/-- With the line after the last newline, and without it. -/
structure FileKept (drawn : ℕ) (events : List Event) (file : LineFile PairingRecord) : Prop where
  complete : CodesKept drawn events file.records
  all : CodesKept drawn events (readable file)

theorem record?_pairing_line (lengths : LineLengths) (record : PairingRecord) :
    (lengths.pairing_line record).record? = if record.one_line then some record else none := by
  unfold LineLengths.pairing_line Line.record?
  dsimp only
  split
  · rename_i r htext
    split at htext
    · rename_i hline
      rw [← LineText.record.inj htext, if_pos hline]
    · cases htext
  · rename_i htext
    split
    · rename_i hline
      rw [if_pos hline] at htext
      exact absurd rfl (htext record)
    · rfl

theorem readable_of_rest {file : LineFile PairingRecord} (hrest : file.rest = none) :
    readable file = file.records := by
  unfold readable LineFile.rest_record
  rw [hrest]
  exact List.append_nil _

theorem file_append {file : LineFile PairingRecord} (h : FileKept drawn events file)
    (hrest : file.rest = none) (hmay : MayAppend drawn (readable file) record) :
    FileKept (drawn + 1) events (file.append (lengths.pairing_line record)) := by
  rw [readable_of_rest hrest] at hmay
  have hrecords : CodesKept (drawn + 1) events
      (file.append (lengths.pairing_line record)).records := by
    rw [LineFile.records_append hrest, record?_pairing_line]
    split
    · rename_i hline
      exact codes_append h.complete hmay hline
    · rw [Option.toList_none, List.append_nil]
      exact h.complete.more
  refine ⟨hrecords, ?_⟩
  rw [readable_of_rest LineFile.rest_append]
  exact hrecords

theorem file_tear (lengths : LineLengths) {file : LineFile PairingRecord}
    (h : FileKept drawn events file) (hmay : MayAppend drawn (readable file) record) (torn : Torn) :
    FileKept (drawn + 1) events (file.tear (lengths.pairing_line record) torn) := by
  have hrecords : (file.tear (lengths.pairing_line record) torn).records = file.records :=
    LineFile.records_tear torn
  refine ⟨?_, ?_⟩
  · rw [hrecords]
    exact h.complete.more
  · unfold readable
    rw [hrecords]
    cases hleft : (file.tear (lengths.pairing_line record) torn).rest_record with
    | none =>
      rw [Option.toList_none, List.append_nil]
      exact h.complete.more
    | some r =>
      rcases LineFile.rest_record_tear hleft with hbefore | ⟨hrest, hline⟩
      · have hall := h.all.more
        unfold readable at hall
        rw [hbefore] at hall
        exact hall
      · rw [record?_pairing_line] at hline
        split at hline
        · rename_i hone
          rw [readable_of_rest hrest] at hmay
          rw [← Option.some.inj hline]
          exact codes_append h.complete hmay hone
        · cases hline

def Access.pairing? : Access → Option PairingRecord
  | .append_pairing record => some record
  | _ => none

def added (accesses : List Access) : List PairingRecord := accesses.filterMap Access.pairing?

/-- No record of a pairing is appended to a torn line. -/
def PairingsWhole (s : PairingStore) (accesses : List Access) : Prop :=
  added accesses ≠ [] → s.pairing_log.rest = none

theorem pairing_log_access (a : Access) :
    (s.access lengths moment a).pairing_log =
      (added [a]).foldl (fun log record => log.append (lengths.pairing_line record))
        s.pairing_log := by
  cases a with
  | write_devices devices => rfl
  | append_pairing record => rfl
  | append_terminal record => rfl
  | read_terminals =>
    unfold PairingStore.access PairingStore.read_terminals
    dsimp only
    split
    · rfl
    · rfl

theorem pairing_log_perform (lengths : LineLengths) (moment : Moment) (accesses : List Access) :
    (s.perform lengths moment accesses).pairing_log =
      (added accesses).foldl (fun log record => log.append (lengths.pairing_line record))
        s.pairing_log := by
  unfold PairingStore.perform
  induction accesses generalizing s with
  | nil => rfl
  | cons a accesses ih =>
    have hboth : added (a :: accesses) = added [a] ++ added accesses :=
      List.filterMap_append (l := [a])
    rw [List.foldl_cons, ih, pairing_log_access, hboth, List.foldl_append]

/-- What the accesses of a call append to the log of pairings. -/
structure AddsKept (s : PairingStore) (accesses : List Access) : Prop where
  may : ∀ record ∈ added accesses, MayAppend s.drawn (readable s.pairing_log) record
  one : (added accesses).length ≤ 1

variable {accesses : List Access}

theorem AddsKept.take (h : AddsKept s accesses) (n : ℕ) : AddsKept s (accesses.take n) := by
  have hsub : (added (accesses.take n)).Sublist (added accesses) :=
    (List.take_sublist n accesses).filterMap _
  refine ⟨?_, le_trans hsub.length_le h.one⟩
  intro record hmem
  exact h.may record (hsub.subset hmem)

theorem file_perform (lengths : LineLengths) (moment : Moment)
    (h : FileKept s.drawn s.events s.pairing_log) (hadds : AddsKept s accesses)
    (hwhole : PairingsWhole s accesses) :
    FileKept (s.drawn + 1) s.events (s.perform lengths moment accesses).pairing_log := by
  rw [pairing_log_perform]
  have hone := hadds.one
  rcases hadded : added accesses with _ | ⟨record, _ | ⟨second, others⟩⟩
  · exact ⟨h.complete.more, h.all.more⟩
  · have hrest : s.pairing_log.rest = none := by
      apply hwhole
      rw [hadded]
      exact List.cons_ne_nil _ _
    apply file_append h hrest
    apply hadds.may
    rw [hadded]
    exact List.mem_singleton_self _
  · rw [hadded] at hone
    exact absurd hone (by simp)

def ClaimedOnce (events : List Event) : Prop :=
  events.Pairwise fun e e' => ∀ code token token' reusable_claims reusable_claims',
    e = .claimed code token reusable_claims → e' = .claimed code token' reusable_claims' →
    reusable_claims = true ∧ reusable_claims' = true

/-- The call has claimed a code. -/
def Claims : Event → Prop
  | .claimed _ _ _ => True
  | _ => False

/-- What a call does with pairings. -/
structure PairingOutcome (s : PairingStore) (outcome : Outcome) : Prop where
  adds : AddsKept s outcome.accesses
  claims : ∀ events, outcome.returns = .ok events → (∀ e ∈ events, ¬ Claims e) ∨
    ∃ record ∈ added outcome.accesses, ∃ before ∈ collapse PairingRecord.pairing_id
        (readable s.pairing_log), ∃ token,
      events = [.claimed before.token_hash token before.reusable_claims] ∧
      (before.reusable_claims = false → before.claimed = false) ∧
      record.pairing_id = before.pairing_id ∧ record.claimed = true ∧
      record.reusable_claims = before.reusable_claims ∧ record.one_line = before.one_line

theorem adds_none (hnone : added accesses = []) : AddsKept s accesses := by
  refine ⟨?_, ?_⟩
  · intro record hmem
    rw [hnone] at hmem
    exact absurd hmem List.not_mem_nil
  · rw [hnone]
    exact Nat.zero_le 1

theorem adds_one (hone : added accesses = [record])
    (hmay : MayAppend s.drawn (readable s.pairing_log) record) : AddsKept s accesses := by
  refine ⟨?_, ?_⟩
  · intro r hmem
    rw [hone] at hmem
    rw [List.mem_singleton.mp hmem]
    exact hmay
  · rw [hone]
    exact le_refl 1

theorem pairing_state_ok {pairings : List PairingRecord}
    (h : s.pairing_state_by_id = .ok pairings) :
    pairings = collapse PairingRecord.pairing_id (readable s.pairing_log) := by
  unfold PairingStore.pairing_state_by_id at h
  split at h
  · exact (Except.ok.inj h).symm
  · cases h

theorem standing_of_collapse (hmem : record ∈ collapse PairingRecord.pairing_id log) :
    latest? PairingRecord.pairing_id record.pairing_id log = some record :=
  (latest?_eq_some_iff _).mpr ⟨hmem, rfl⟩

theorem revoke_pairing_outcome (now : ℕ) (pairing_id : PairingId) (reason : Text) :
    PairingOutcome s (s.revoke_pairing now pairing_id reason) := by
  have hevents : ∀ events, (s.revoke_pairing now pairing_id reason).returns = .ok events →
      (∀ e ∈ events, ¬ Claims e) := by
    intro events hok e he
    rw [(revoke_pairing_returns s now pairing_id reason).2 events hok] at he
    exact absurd he List.not_mem_nil
  refine ⟨?_, fun events hok => Or.inl (hevents events hok)⟩
  unfold PairingStore.revoke_pairing
  split
  · exact adds_none rfl
  · rename_i pairings hok
    rw [pairing_state_ok hok]
    split
    · exact adds_none rfl
    · rename_i before hfind
      have hstanding := standing_of_collapse (List.mem_of_find?_eq_some hfind)
      split
      · exact adds_none rfl
      · exact adds_one rfl (.updated before hstanding rfl rfl fun h => h)

theorem claimable_ok {pairings : List PairingRecord} {code : Token} {now : ℕ}
    (h : PairingStore.claimable now pairings code = .ok record) :
    record ∈ pairings ∧ record.token_hash = code ∧
      (record.reusable_claims = false → record.claimed = false) := by
  simp only [PairingStore.claimable, bind_ok, valueOr_ok, refuseIf_ok, pure_ok] at h
  obtain ⟨found, hfind, _, _, _, hclaimed, _, _, rfl⟩ := h
  have hcode := List.find?_some hfind
  refine ⟨List.mem_of_find?_eq_some hfind, of_decide_eq_true hcode, ?_⟩
  intro hflag
  rw [hflag] at hclaimed
  exact Bool.eq_false_iff.mpr hclaimed

theorem claim_pairing_outcome (now : ℕ) (code : Token) (device_id : Text) :
    PairingOutcome s (s.claim_pairing now code device_id) := by
  unfold PairingStore.claim_pairing
  split
  · exact ⟨adds_none rfl, fun events hok => by cases hok⟩
  · rename_i pairings hpairings
    split
    · exact ⟨adds_none rfl, fun events hok => by cases hok⟩
    · rename_i before hbefore
      rw [pairing_state_ok hpairings] at hbefore
      obtain ⟨hmem, hcode, hfree⟩ := claimable_ok hbefore
      split
      · exact ⟨adds_none rfl, fun events hok => by cases hok⟩
      · have hclaimed : PairingRecord.claimed { before with
            claimed_at := some now
            claimed_by_device_id := some device_id } = true := rfl
        refine ⟨adds_one rfl (.updated before (standing_of_collapse hmem) rfl rfl
          fun _ => hclaimed), ?_⟩
        intro events hok
        refine Or.inr ⟨_, List.mem_singleton_self _, before, hmem, s.drawn, ?_, hfree, rfl,
          hclaimed, rfl, rfl⟩
        rw [hcode]
        exact (Except.ok.inj hok).symm

theorem outcome_without {outcome : Outcome} (hnone : added outcome.accesses = [])
    (hevents : ∀ events, outcome.returns = .ok events → ∀ e ∈ events, ¬ Claims e) :
    PairingOutcome s outcome :=
  ⟨adds_none hnone, fun events hok => Or.inl (hevents events hok)⟩

variable {token : Token}

theorem on_terminal_without {id : TerminalId}
    {change : TerminalRecord → PairingStore.TerminalChange}
    (hchange : ∀ record updated events, change record = .ok (updated, events) →
      ∀ e ∈ events, ¬ Claims e) :
    PairingOutcome s (s.on_terminal id token change) := by
  unfold PairingStore.on_terminal
  split
  · exact outcome_without rfl fun events hok => by cases hok
  · rename_i updated events hok
    obtain ⟨record, _, hchanged⟩ := bind_ok.mp hok
    refine outcome_without ?_ ?_
    · unfold added
      rw [List.filterMap_cons_none rfl, List.filterMap_map]
      exact List.filterMap_eq_nil_iff.mpr fun _ _ => rfl
    · intro events' hreturns
      rw [← Except.ok.inj hreturns]
      exact hchange record updated events hchanged

theorem no_claim_singleton {e : Event} (h : ¬ Claims e) : ∀ e' ∈ [e], ¬ Claims e' := by
  intro e' he'
  rw [List.mem_singleton.mp he']
  exact h

theorem revoke_terminals_without (now : ℕ) (selected : TerminalRecord → Bool) :
    added (s.revoke_terminals now selected).1 = [] ∧ ∀ events,
      (.ok (s.revoke_terminals now selected).2 : Except CallFailure (List Event)) = .ok events →
        ∀ e ∈ events, ¬ Claims e := by
  refine ⟨?_, ?_⟩
  · unfold PairingStore.revoke_terminals added
    dsimp only
    rw [List.filterMap_cons_none rfl, List.filterMap_map]
    exact List.filterMap_eq_nil_iff.mpr fun _ _ => rfl
  · intro events hok e he
    rw [← Except.ok.inj hok] at he
    obtain ⟨record, _, rfl⟩ := List.mem_map.mp he
    exact fun h => h

theorem revoke_device_without (now : ℕ) (device_id : Text) :
    PairingOutcome s (s.revoke_device now device_id) := by
  unfold PairingStore.revoke_device
  split
  · exact outcome_without rfl fun events hok => by cases hok
  · exact outcome_without (revoke_terminals_without now _).1 (revoke_terminals_without now _).2

theorem revoke_host_terminals_without (now : ℕ) (device_id client_session_id : Text) :
    PairingOutcome s (s.revoke_host_terminals now device_id client_session_id) := by
  unfold PairingStore.revoke_host_terminals
  split
  · exact outcome_without rfl fun events hok => by cases hok
  · exact outcome_without (revoke_terminals_without now _).1 (revoke_terminals_without now _).2

theorem authenticate_device_without (now : ℕ) (token : Token) (required_scopes : List Text) :
    PairingOutcome s (s.authenticate_device now token required_scopes) := by
  refine outcome_without ?_ ?_
  · unfold PairingStore.authenticate_device
    split
    · rfl
    · rfl
  · intro events hok e he
    rw [(authenticate_device_returns s now token required_scopes).2 events hok] at he
    exact absurd he List.not_mem_nil

theorem pairings_outcome (s : PairingStore) (now : ℕ) (request : StoreRequest) :
    PairingOutcome s (s.outcome now request) := by
  cases request with
  | create_pairing project_id gateway_url route_provider scopes expires_seconds reusable_claims =>
    refine ⟨adds_one rfl (.created rfl rfl), ?_⟩
    intro events hok
    rw [← Except.ok.inj hok]
    exact Or.inl fun e he => absurd he List.not_mem_nil
  | revoke_pairing pairing_id reason => exact revoke_pairing_outcome now pairing_id reason
  | claim_pairing code device_id => exact claim_pairing_outcome now code device_id
  | authenticate_device token required_scopes =>
    exact authenticate_device_without now token required_scopes
  | revoke_device device_id => exact revoke_device_without now device_id
  | create_terminal project_id device_id target_summary expires_seconds =>
    refine outcome_without rfl ?_
    intro events hok
    rw [← Except.ok.inj hok]
    exact fun e he => absurd he List.not_mem_nil
  | authenticate_terminal id token resume_cursor =>
    apply on_terminal_without
    intro record updated events hok
    simp only [PairingStore.authenticated_terminal, bind_ok, pure_ok, Prod.mk.injEq] at hok
    obtain ⟨_, _, _, _, _, rfl⟩ := hok
    exact no_claim_singleton fun h => h
  | record_input id token sequence =>
    apply on_terminal_without
    intro record updated events hok
    simp only [PairingStore.recorded_input, bind_ok, pure_ok, Prod.mk.injEq] at hok
    obtain ⟨_, _, _, _, _, rfl⟩ := hok
    exact no_claim_singleton fun h => h
  | record_output id token sequence =>
    apply on_terminal_without
    intro record updated events hok
    simp only [PairingStore.recorded_output, bind_ok] at hok
    obtain ⟨_, _, hok⟩ := hok
    split at hok
    · simp only [pure_ok, Prod.mk.injEq] at hok
      obtain ⟨_, rfl⟩ := hok
      exact no_claim_singleton fun h => h
    · simp only [pure_ok, Prod.mk.injEq] at hok
      obtain ⟨_, rfl⟩ := hok
      exact no_claim_singleton fun h => h
  | mark_disconnected id token =>
    apply on_terminal_without
    intro record updated events hok
    simp only [PairingStore.disconnected, bind_ok, pure_ok, Prod.mk.injEq] at hok
    obtain ⟨_, _, _, rfl⟩ := hok
    exact fun e he => absurd he List.not_mem_nil
  | close_terminal id token =>
    apply on_terminal_without
    intro record updated events hok
    unfold PairingStore.closed at hok
    split at hok
    · obtain ⟨_, rfl⟩ := Prod.mk.inj (Except.ok.inj hok)
      exact no_claim_singleton fun h => h
    · obtain ⟨_, rfl⟩ := Prod.mk.inj (Except.ok.inj hok)
      exact no_claim_singleton fun h => h
  | revoke_host_terminals device_id client_session_id =>
    exact revoke_host_terminals_without now device_id client_session_id

structure PairingsKept (s : PairingStore) : Prop where
  file : FileKept s.drawn s.events s.pairing_log
  once : ClaimedOnce s.events

theorem pairings_start : PairingsKept .empty := by
  have hnone : CodesKept 0 [] [] := by
    refine ⟨?_, ?_⟩
    · intro record hmem
      exact absurd hmem List.not_mem_nil
    · intro code token reusable_claims he
      exact absurd he List.not_mem_nil
  exact ⟨⟨hnone, hnone⟩, List.Pairwise.nil⟩

/-- In no step a record of a pairing is appended to a torn line. -/
def PairingsWholeRun (lengths : LineLengths) : List StoreStep → PairingStore → Prop
  | [], _ => True
  | c :: steps, s =>
    PairingsWhole s (performed s c) ∧ PairingsWholeRun lengths steps (s.step lengths c)

instance (s : PairingStore) (accesses : List Access) : Decidable (PairingsWhole s accesses) :=
  inferInstanceAs (Decidable (added accesses ≠ [] → s.pairing_log.rest = none))

instance decidablePairingsWholeRun (lengths : LineLengths) :
    (steps : List StoreStep) → (s : PairingStore) → Decidable (PairingsWholeRun lengths steps s)
  | [], _ => isTrue trivial
  | _ :: steps, _ =>
    have := decidablePairingsWholeRun lengths steps
    inferInstanceAs (Decidable (_ ∧ _))

theorem codes_events {more : List Event} (h : CodesKept drawn events log)
    (hmore : ∀ e ∈ more, ¬ Claims e) : CodesKept drawn (events ++ more) log := by
  refine ⟨h.numbers, ?_⟩
  intro code token reusable_claims he
  rcases List.mem_append.mp he with hbefore | hnew
  · exact h.claimed code token reusable_claims hbefore
  · exact absurd trivial (hmore _ hnew)

theorem once_events {more : List Event} (h : ClaimedOnce events)
    (hmore : ∀ e ∈ more, ¬ Claims e) : ClaimedOnce (events ++ more) := by
  have hlater : ∀ e' ∈ more, ∀ e code token token' reusable_claims reusable_claims',
      e = Event.claimed code token reusable_claims →
      e' = .claimed code token' reusable_claims' →
      reusable_claims = true ∧ reusable_claims' = true := by
    intro e' he' e code token token' reusable_claims reusable_claims' _ hclaimed
    rw [hclaimed] at he'
    exact absurd trivial (hmore _ he')
  refine List.pairwise_append.mpr ⟨h, ?_, ?_⟩
  · apply List.pairwise_of_forall_mem_list
    intro e _ e' he'
    exact hlater e' he' e
  · intro e _ e' he'
    exact hlater e' he' e

theorem codes_claim {code : Token} {reusable_claims : Bool} (h : CodesKept drawn events log)
    (hstands : latest? PairingRecord.pairing_id code log = some record)
    (hclaimed : record.claimed = true) (hflag : record.reusable_claims = reusable_claims) :
    CodesKept drawn (events ++ [.claimed code token reusable_claims]) log := by
  refine ⟨h.numbers, ?_⟩
  intro code' token' flag he
  rcases List.mem_append.mp he with hbefore | hnew
  · exact h.claimed code' token' flag hbefore
  · obtain ⟨rfl, _, rfl⟩ := Event.claimed.inj (List.mem_singleton.mp hnew)
    exact ⟨record, hstands, hclaimed, hflag⟩

/-- A claim returns once its record is appended. -/
theorem pairings_claimed (lengths : LineLengths) (moment : Moment) {before : PairingRecord}
    (h : PairingsKept s) (hadds : AddsKept s accesses) (hwhole : PairingsWhole s accesses)
    (hmem : record ∈ added accesses)
    (hbefore : before ∈ collapse PairingRecord.pairing_id (readable s.pairing_log))
    (hfree : before.reusable_claims = false → before.claimed = false)
    (hid : record.pairing_id = before.pairing_id) (hclaimed : record.claimed = true)
    (hflag : record.reusable_claims = before.reusable_claims)
    (hline : record.one_line = before.one_line) :
    FileKept (s.drawn + 1) (s.events ++ [.claimed before.token_hash token before.reusable_claims])
      (s.perform lengths moment accesses).pairing_log ∧
    ClaimedOnce (s.events ++ [.claimed before.token_hash token before.reusable_claims]) := by
  have hfile : FileKept (s.drawn + 1) s.events (s.perform lengths moment accesses).pairing_log :=
    file_perform lengths moment h.file hadds hwhole
  have hstands := h.file.all.code hbefore rfl
  obtain ⟨hread, hcode⟩ := mem_of_latest? hstands
  obtain ⟨_, _, hone⟩ := h.file.all.numbers before hread
  have hadded : added accesses = [record] := by
    have hlength := hadds.one
    rcases hall : added accesses with _ | ⟨r, _ | ⟨second, others⟩⟩
    · rw [hall] at hmem
      exact absurd hmem List.not_mem_nil
    · rw [hall] at hmem
      rw [List.mem_singleton.mp hmem]
    · rw [hall] at hlength
      exact absurd hlength (by simp)
  have hrest : s.pairing_log.rest = none := by
    apply hwhole
    rw [hadded]
    exact List.cons_ne_nil _ _
  have hlog : (s.perform lengths moment accesses).pairing_log =
      s.pairing_log.append (lengths.pairing_line record) := by
    rw [pairing_log_perform, hadded]
    rfl
  have hrecords : (s.perform lengths moment accesses).pairing_log.records =
      s.pairing_log.records ++ [record] := by
    rw [hlog, LineFile.records_append hrest, record?_pairing_line, hline, hone]
    rfl
  have hlatest : latest? PairingRecord.pairing_id before.token_hash
      (s.perform lengths moment accesses).pairing_log.records = some record := by
    rw [hrecords, latest?_append, if_pos (hid.trans hcode)]
  have hall : readable (s.perform lengths moment accesses).pairing_log =
      (s.perform lengths moment accesses).pairing_log.records := by
    apply readable_of_rest
    rw [hlog]
    exact LineFile.rest_append
  refine ⟨⟨codes_claim hfile.complete hlatest hclaimed hflag, ?_⟩, ?_⟩
  · rw [← hall] at hlatest
    exact codes_claim hfile.all hlatest hclaimed hflag
  · refine List.pairwise_append.mpr ⟨h.once, List.pairwise_singleton _ _, ?_⟩
    intro e he e' he' code token₁ token₂ flag₁ flag₂ hfirst hsecond
    rw [hfirst] at he
    rw [List.mem_singleton.mp he'] at hsecond
    obtain ⟨hsame, _, hflag₂⟩ := Event.claimed.inj hsecond
    obtain ⟨standing, hlatest₁, hclaimed₁, hflag₁⟩ := h.file.all.claimed code token₁ flag₁ he
    rw [← hsame, hstands] at hlatest₁
    rw [← Option.some.inj hlatest₁] at hclaimed₁ hflag₁
    cases hreusable : before.reusable_claims with
    | true => exact ⟨hflag₁.symm.trans hreusable, hflag₂.symm.trans hreusable⟩
    | false =>
      rw [hfree hreusable] at hclaimed₁
      exact Bool.noConfusion hclaimed₁

theorem added_next (h : AddsKept s accesses) {n : ℕ}
    (hnext : accesses[n]? = some (.append_pairing record)) :
    added (accesses.take n) = [] ∧
    MayAppend s.drawn (readable s.pairing_log) record := by
  have hsplit : accesses = accesses.take n ++ .append_pairing record :: accesses.drop (n + 1) := by
    obtain ⟨hlt, hget⟩ := List.getElem?_eq_some_iff.mp hnext
    rw [← hget, ← List.drop_eq_getElem_cons hlt, List.take_append_drop]
  have hadded : added accesses =
      added (accesses.take n) ++ record :: added (accesses.drop (n + 1)) := by
    have hboth : added (accesses.take n ++ .append_pairing record :: accesses.drop (n + 1)) =
        added (accesses.take n) ++ record :: added (accesses.drop (n + 1)) :=
      List.filterMap_append
    rw [← hsplit] at hboth
    exact hboth
  have hone := h.one
  rw [hadded, List.length_append, List.length_cons] at hone
  refine ⟨List.length_eq_zero_iff.mp (by omega), ?_⟩
  apply h.may
  rw [hadded]
  exact List.mem_append_right _ List.mem_cons_self

theorem file_stop (lengths : LineLengths) (moment : Moment)
    (h : PairingsKept s) (hadds : AddsKept s accesses) (n : ℕ) (torn : Torn)
    (hwhole : PairingsWhole s (accesses.take n)) :
    FileKept (s.drawn + 1) s.events
      ((s.perform lengths moment (accesses.take n)).tear_next lengths moment torn
        accesses[n]?).restart.pairing_log := by
  have hfile := file_perform lengths moment h.file (hadds.take n) hwhole
  cases hnext : accesses[n]? with
  | none => exact hfile
  | some next =>
    cases next with
    | write_devices devices | read_terminals | append_terminal record => exact hfile
    | append_pairing record =>
      obtain ⟨hnone, hmay⟩ := added_next hadds hnext
      have hlog : (s.perform lengths moment (accesses.take n)).pairing_log = s.pairing_log := by
        rw [pairing_log_perform, hnone]
        rfl
      have htear := file_tear lengths h.file hmay torn
      rw [← hlog] at htear
      exact htear

theorem pairings_step (h : PairingsKept s) (c : StoreStep)
    (hwhole : PairingsWhole s (performed s c)) : PairingsKept (s.step lengths c) := by
  cases c with
  | call moment request =>
    obtain ⟨hadds, hclaims⟩ := pairings_outcome s moment.now request
    obtain ⟨hdrawn, hevents⟩ := perform_drawn (s := s) lengths moment
      (performed s (.call moment request))
    have hfile := file_perform lengths moment h.file hadds hwhole
    have hnext := congrArg (· + 1) hdrawn
    have honce := h.once
    unfold PairingStore.step PairingStore.return_call
    dsimp only [performed] at *
    split
    · rw [← hnext, ← hevents] at hfile
      rw [← hevents] at honce
      exact ⟨hfile, honce⟩
    · rename_i events hok
      rcases hclaims events hok with hnone | hclaim
      · have hall : FileKept (s.drawn + 1) (s.events ++ events) _ :=
          ⟨codes_events hfile.complete hnone, codes_events hfile.all hnone⟩
        have honce' := once_events honce hnone
        rw [← hnext, ← hevents] at hall
        rw [← hevents] at honce'
        exact ⟨hall, honce'⟩
      · obtain ⟨record, hmem, before, hbefore, token, rfl, hfree, hid, hclaimed, hflag, hline⟩ :=
          hclaim
        obtain ⟨hall, honce'⟩ := pairings_claimed lengths moment h hadds hwhole hmem hbefore
          hfree hid hclaimed hflag hline
        rw [← hnext, ← hevents] at hall
        rw [← hevents] at honce'
        exact ⟨hall, honce'⟩
  | stop moment request done torn =>
    have hadds := (pairings_outcome s moment.now request).adds
    obtain ⟨hdrawn, hevents⟩ := perform_drawn (s := s) lengths moment
      (performed s (.stop moment request done torn))
    obtain ⟨hdrawn', hevents'⟩ := tear_drawn (s := s.perform lengths moment
      (performed s (.stop moment request done torn))) lengths moment torn
      (s.outcome moment.now request).accesses[done]?
    have hfile := file_stop lengths moment h hadds done torn hwhole
    have honce := h.once
    rw [hdrawn] at hdrawn'
    rw [hevents] at hevents'
    rw [← hevents'] at honce
    rw [← hdrawn', ← hevents'] at hfile
    exact ⟨hfile, honce⟩

theorem pairings_run (steps : List StoreStep) (h : PairingsKept s)
    (hwhole : PairingsWholeRun lengths steps s) : PairingsKept (s.run lengths steps) := by
  unfold PairingStore.run
  induction steps generalizing s with
  | nil => exact h
  | cons c steps ih => exact ih (pairings_step h c hwhole.1) hwhole.2

/-- As long as no line is appended to a torn one, a code is claimed once, unless it can be
claimed again, the sequence numbers of a terminal increase, and a terminal that is closed or
revoked is not used any more. -/
theorem codes_and_handles_kept (lengths : LineLengths) (steps : List StoreStep) :
    (PairingsWholeRun lengths steps .empty →
      ClaimedOnce (PairingStore.empty.run lengths steps).events) ∧
    (TerminalsWholeRun lengths steps .empty →
      InputsIncrease (PairingStore.empty.run lengths steps).events ∧
      EndedStays (PairingStore.empty.run lengths steps).events) := by
  refine ⟨fun hwhole => (pairings_run steps pairings_start hwhole).once, fun hwhole => ?_⟩
  have hkept := terminals_run steps terminals_start hwhole
  exact ⟨hkept.increase, hkept.stays⟩

def exampleLengths : LineLengths := { pairing := fun _ => 400, terminal := fun _ => 400 }

def exampleMoment : Moment := { now := 1000, mtime := 7, identity := 1 }

def exampleCall (request : StoreRequest) : StoreStep := .call exampleMoment request

/-- A process that stops in the first append of a call. -/
def exampleStop (request : StoreRequest) : StoreStep :=
  .stop exampleMoment request 0 (.part 150 true)

def newPairing : StoreRequest :=
  .create_pairing (asciiText "project") (asciiText "http://host") (asciiText "lan")
    [asciiText "view"] (some 600) false

def newTerminal : StoreRequest :=
  .create_terminal (asciiText "project") (asciiText "phone")
    { kind := asciiText "agent", client_session_id := [] } 300

/-- The calls that are to be refused come last, or after the same call. -/
def wholeSteps : List StoreStep :=
  [exampleCall newPairing, exampleCall (.claim_pairing 0 (asciiText "phone")),
    exampleCall (.claim_pairing 0 (asciiText "tablet")), exampleCall newTerminal,
    exampleCall (.record_input 3 3 1), exampleCall (.record_input 3 3 1),
    exampleCall (.close_terminal 3 3), exampleStop newTerminal, exampleStop newPairing,
    exampleCall (.record_input 3 3 2), exampleCall (.claim_pairing 0 (asciiText "tablet"))]

theorem codes_and_handles_kept_whole :
    let events := (PairingStore.empty.run exampleLengths wholeSteps).events
    events = [.claimed 0 1 false, .input 3 1, .ended 3] ∧
      ClaimedOnce events ∧ InputsIncrease events ∧ EndedStays events :=
  ⟨by decide,
    (codes_and_handles_kept exampleLengths wholeSteps).1 (by decide),
    (codes_and_handles_kept exampleLengths wholeSteps).2 (by decide)⟩

/-- A claim, an input and a close are appended to torn lines. -/
def tornSteps : List StoreStep :=
  [exampleCall newPairing, exampleStop newPairing,
    exampleCall (.claim_pairing 0 (asciiText "phone")),
    exampleCall (.claim_pairing 0 (asciiText "tablet")), exampleCall newTerminal,
    exampleStop newTerminal, exampleCall (.record_input 4 4 1),
    exampleCall (.record_input 4 4 1), exampleStop newTerminal,
    exampleCall (.close_terminal 4 4), exampleCall (.record_input 4 4 2)]

theorem related_of_sublist {R : Event → Event → Prop} {a b : Event} (h : events.Pairwise R)
    (hsub : [a, b].Sublist events) : R a b :=
  List.pairwise_pair.mp (h.sublist hsub)

/-- The code is claimed twice, the sequence number is taken twice, and the closed terminal
takes input. -/
theorem torn_line_undoes :
    let events := (PairingStore.empty.run exampleLengths tornSteps).events
    ¬ ClaimedOnce events ∧ ¬ InputsIncrease events ∧ ¬ EndedStays events := by
  have hevents : (PairingStore.empty.run exampleLengths tornSteps).events =
      [.claimed 0 2 false, .claimed 0 3 false, .input 4 1, .input 4 1, .ended 4, .input 4 2] := by
    decide
  dsimp only
  rw [hevents]
  refine ⟨?_, ?_, ?_⟩
  · intro h
    have hflags := related_of_sublist (a := .claimed 0 2 false) (b := .claimed 0 3 false) h
      (by decide) 0 2 3 false false rfl rfl
    exact Bool.noConfusion hflags.1
  · intro h
    have hless := related_of_sublist (a := .input 4 1) (b := .input 4 1) h (by decide)
      4 1 1 rfl rfl
    exact absurd hless (lt_irrefl _)
  · intro h
    exact related_of_sublist (a := .ended 4) (b := .input 4 2) h (by decide) 4 rfl rfl

end ClaudeCodeBridge.Analysis.Pairing
