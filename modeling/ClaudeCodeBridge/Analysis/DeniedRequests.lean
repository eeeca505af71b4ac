import ClaudeCodeBridge.Model.AdmissionTransactions

/-!
# Denied relay requests

A call does to the tables what its operation does (`run_operation`).  A transaction that raises is
rolled back, the traces of the denial included: a refused call leaves the database exactly as it was
(`refused_unchanged`).  The three bodies that mark an invitation as
expired or write an audit record before they refuse have done so in their working copy
(`claim_due`, `reserve_full`, `bytes_full`), and lose it.
-/

set_option autoImplicit false

namespace ClaudeCodeBridge.Analysis.DeniedRequests

open Program
open Model.Relay

variable {secrets : AdmissionSecrets} {clock : Clock} {s s' : AuditedDatabase}
  {e : RelayAdmissionError} {α β : Type}

/-- Statements that leave the store as it was when they raise. -/
def Restoring (body : AdmissionBody α) : Prop :=
  ∀ s e s', body s = (.error e, s') → s' = s

theorem restoring_transaction (body : AdmissionBody α) : Restoring (transaction body) := by
  intro s e s' h
  have hfailed : (transaction body s).1 = .error e := by rw [h]
  have hsame := rolled_back hfailed
  rw [h] at hsame
  exact hsame

theorem restoring_check (outcome : Except RelayAdmissionError α) {next : α → AdmissionBody β}
    (hnext : ∀ a, Restoring (next a)) : Restoring (Statements.check outcome >>= next) := by
  intro s e s' h
  cases outcome with
  | ok a =>
    have hbind : (Statements.check (.ok a) >>= next) s = next a s := Statements.bind_of_ok rfl
    rw [hbind] at h
    exact hnext a s e s' h
  | error refusal =>
    have hbind : (Statements.check (.error refusal) >>= next) s = (.error refusal, s) :=
      Statements.bind_of_error rfl
    rw [hbind] at h
    cases h
    rfl

theorem restoring_query {select : AdmissionDatabase → α} {next : α → AdmissionBody β}
    (hnext : ∀ a, Restoring (next a)) : Restoring (query select >>= next) :=
  fun s e s' h => hnext (select s.db) s e s' h

theorem restoring_void {body : AdmissionBody α} (h : Restoring body) :
    Restoring (body >>= fun _ => pure ()) := by
  intro s e s' hrun
  cases hbody : body s with
  | mk outcome after =>
    cases outcome with
    | ok a =>
      rw [Statements.bind_of_ok hbody] at hrun
      cases hrun
    | error refusal =>
      rw [Statements.bind_of_error hbody] at hrun
      cases hrun
      exact h s _ _ hbody

/-- **A refused call leaves the database exactly as it was.** -/
theorem refused_unchanged (secrets : AdmissionSecrets) (clock : Clock) (call : AuditedCall) :
    Restoring (call.run secrets clock) := by
  cases call with
  | claim_invitation | reserve_host_session =>
    apply restoring_check
    intro _
    apply restoring_check
    intro _
    exact restoring_void (restoring_transaction _)
  | issue_invitation | release_host_session | record_host_bytes =>
    apply restoring_check
    intro _
    apply restoring_check
    intro _
    exact restoring_transaction _
  | issue_session_capability =>
    apply restoring_check
    intro _
    apply restoring_check
    intro _
    apply restoring_query
    intro _
    apply restoring_check
    intro _
    apply restoring_check
    intro _
    apply restoring_check
    intro _
    exact restoring_transaction _
  | _ => exact restoring_transaction _

def tables (outcome : Except RelayAdmissionError (α × AdmissionDatabase)) :
    Except RelayAdmissionError AdmissionDatabase := outcome.map Prod.snd

def operation (secrets : AdmissionSecrets) (now : Seconds) (db : AdmissionDatabase) :
    AuditedCall → Except RelayAdmissionError AdmissionDatabase
  | .issue_invitation ttl_seconds max_sessions max_bytes_per_day _ token secret =>
    tables (db.issue_invitation secrets now ttl_seconds max_sessions max_bytes_per_day token secret)
  | .claim_invitation invitation host_public_key_b64 token =>
    tables (db.claim_invitation secrets now invitation host_public_key_b64 token)
  | .revoke_invitation invite_id _ => tables (db.revoke_invitation now invite_id)
  | .expire_due_invitations => .ok (db.expire_due_invitations now).2
  | .revoke_host host_id _ => tables (db.revoke_host now host_id)
  | .reserve_host_session host_id session_id =>
    tables (db.reserve_host_session now host_id session_id)
  | .release_host_session host_id session_id =>
    tables (db.release_host_session now host_id session_id)
  | .reconcile_active_sessions _ => .ok (db.reconcile_active_sessions now).2
  | .record_host_bytes host_id byte_count => tables (db.record_host_bytes now host_id byte_count)
  | .issue_session_capability host_id ttl_seconds proof_expires_at proof_accepted _ =>
    tables (db.issue_session_capability now host_id ttl_seconds proof_expires_at proof_accepted)

/-- The tables that statements leave, or what they raise. -/
def result (body : AdmissionBody α) (s : AuditedDatabase) :
    Except RelayAdmissionError AdmissionDatabase :=
  (body s).1.map fun _ => (body s).2.db

section Results

variable {body : AdmissionBody α} {next : α → AdmissionBody β}

theorem result_bind_ok {a : α} (h : body s = (.ok a, s')) :
    result (body >>= next) s = result (next a) s' := by
  unfold result
  rw [Statements.bind_of_ok h]

theorem result_bind_error (h : body s = (.error e, s')) : result (body >>= next) s = .error e := by
  unfold result
  rw [Statements.bind_of_error h]
  rfl

/-- A check is the same in the statements and in the operation. -/
theorem result_check {γ : Type} (outcome : Except RelayAdmissionError α)
    {operation : α → Except RelayAdmissionError (γ × AdmissionDatabase)}
    (h : ∀ a, result (next a) s = tables (operation a)) :
    result (Statements.check outcome >>= next) s = tables (outcome >>= operation) := by
  cases outcome with
  | ok a => exact (result_bind_ok rfl).trans (h a)
  | error refusal => exact result_bind_error rfl

theorem result_query (select : AdmissionDatabase → α) :
    result (query select >>= next) s = result (next (select s.db)) s := result_bind_ok rfl

theorem result_execute (update : AdmissionDatabase → AdmissionDatabase)
    {next : Unit → AdmissionBody β} :
    result (execute update >>= next) s = result (next ()) { s with db := update s.db } :=
  result_bind_ok rfl

theorem result_transaction (body : AdmissionBody α) (s : AuditedDatabase) :
    result (transaction body) s = result body s := by
  unfold result transaction
  cases body s with
  | mk outcome after => cases outcome <;> rfl

theorem result_void (body : AdmissionBody α) (s : AuditedDatabase) :
    result (transaction body >>= fun _ => pure ()) s = result body s := by
  rw [← result_transaction body s]
  cases hbody : transaction body s with
  | mk outcome after =>
    cases outcome with
    | ok a =>
      rw [result_bind_ok hbody]
      unfold result
      rw [hbody]
      rfl
    | error refusal =>
      rw [result_bind_error hbody]
      unfold result
      rw [hbody]
      rfl

theorem result_refusal {γ : Type} {c : Prop} [Decidable c] {trace : AdmissionBody Unit}
    {next : Unit → AdmissionBody β}
    {operation : Unit → Except RelayAdmissionError (γ × AdmissionDatabase)}
    (htrace : (trace s).1 = .error e) (h : ∀ u, result (next u) s = tables (operation u)) :
    result ((if c then trace else pure ()) >>= next) s = tables (refuseIf c e >>= operation) := by
  unfold refuseIf
  by_cases hc : c
  · rw [if_pos hc, if_pos hc]
    exact result_bind_error (Prod.ext htrace rfl)
  · rw [if_neg hc, if_neg hc]
    exact (result_bind_ok rfl).trans (h ())

theorem result_insert_host {γ : Type} (host : RelayHost) {next : Unit → AdmissionBody β}
    {operation : List RelayHost → Except RelayAdmissionError (γ × AdmissionDatabase)}
    (h : ∀ hosts, result (next ()) { s with db := { s.db with hosts := hosts } } =
      tables (operation hosts)) :
    result (insert_host host >>= next) s =
      tables (valueOr (Table.insert (fun row : RelayHost => row.host_id) host s.db.hosts)
        .integrity >>= operation) := by
  have hquery : query (fun db => Table.insert (fun row : RelayHost => row.host_id) host db.hosts) s =
      (.ok (Table.insert (fun row : RelayHost => row.host_id) host s.db.hosts), s) := rfl
  cases hinsert : Table.insert (fun row : RelayHost => row.host_id) host s.db.hosts with
  | none =>
    have hrun : insert_host host s = (.error .integrity, s) := by
      unfold insert_host
      rw [Statements.bind_of_ok hquery, hinsert]
      rfl
    exact result_bind_error hrun
  | some hosts =>
    have hrun : insert_host host s = (.ok (), { s with db := { s.db with hosts := hosts } }) := by
      unfold insert_host
      rw [Statements.bind_of_ok hquery, hinsert]
      rfl
    exact (result_bind_ok hrun).trans (h hosts)

end Results

/-- A call does to the tables what its operation does, and fails where it fails. -/
theorem run_operation (secrets : AdmissionSecrets) (clock : Clock) (call : AuditedCall)
    (s : AuditedDatabase) :
    result (call.run secrets clock) s = operation secrets (clock 0) s.db call := by
  cases call with
  | claim_invitation =>
    apply result_check
    intro invite_id
    apply result_check
    intro _
    rw [result_void, claim_body, result_query]
    apply result_check
    intro row
    apply result_check
    intro _
    apply result_refusal rfl
    intro _
    apply result_check
    intro _
    apply result_insert_host
    intro hosts
    rw [result_query, result_execute]
    apply result_check
    intro _
    rfl
  | reserve_host_session host_id session_id =>
    apply result_check
    intro host_id
    apply result_check
    intro session_id
    rw [result_void, reserve_body, result_query]
    apply result_check
    intro host
    rw [result_query]
    cases s.db.session session_id with
    | some existing => exact result_check _ fun _ => rfl
    | none =>
      apply result_check
      intro max_sessions
      apply result_refusal rfl
      intro _
      rw [result_query]
      exact result_check _ fun _ => rfl
  | record_host_bytes =>
    apply result_check
    intro host_id
    apply result_check
    intro _
    rw [result_transaction, bytes_body, result_query]
    apply result_check
    intro host
    apply result_check
    intro max_bytes
    apply result_refusal rfl
    intro _
    rfl
  | issue_invitation =>
    apply result_check
    intro _
    apply result_check
    intro quota
    rw [result_transaction, issue_body, result_query]
    apply result_check
    intro _
    rw [result_query]
    apply result_check
    intro invitations
    rfl
  | revoke_invitation invite_id =>
    show result (transaction _) s = tables (s.db.revoke_invitation (clock 0) invite_id)
    rw [result_transaction, revoke_invitation_body, result_query, AdmissionDatabase.revoke_invitation]
    cases s.db.invitation invite_id with
    | none => exact result_bind_error rfl
    | some row =>
      refine (result_bind_ok rfl).trans ?_
      dsimp only
      split <;> rfl
  | expire_due_invitations =>
    refine (result_transaction _ s).trans ?_
    rw [expire_body, result_query]
    by_cases hrows : s.db.due_invitations (clock 0) = []
    · rw [if_neg (not_not_intro hrows)]
      show _ = Except.ok (s.db.expire_due_invitations (clock 0)).2
      rw [AdmissionDatabase.expire_due_invitations, hrows]
      rfl
    · rw [if_pos hrows]
      rfl
  | revoke_host host_id =>
    show result (transaction _) s = tables (s.db.revoke_host (clock 0) host_id)
    rw [result_transaction, revoke_host_body, result_query, AdmissionDatabase.revoke_host]
    cases s.db.host host_id with
    | none => exact result_bind_error rfl
    | some row =>
      refine (result_bind_ok rfl).trans ?_
      dsimp only
      split <;> rfl
  | release_host_session =>
    apply result_check
    intro host_id
    apply result_check
    intro session_id
    rw [result_transaction, release_body, result_query]
    apply result_check
    intro host
    rw [result_query]
    apply result_check
    intro session
    apply result_check
    intro _
    split <;> rfl
  | reconcile_active_sessions =>
    refine (result_transaction _ s).trans ?_
    rw [reconcile_body, result_query]
    show _ = Except.ok (s.db.reconcile_active_sessions (clock 0)).2
    unfold AdmissionDatabase.reconcile_active_sessions
    dsimp only
    by_cases hnone : s.db.sessions.countP (fun row => row.state = .active) = 0
    · rw [if_pos hnone, if_pos]
      · rfl
      · rw [List.countP_eq_length_filter, List.length_eq_zero_iff] at hnone
        rw [active_hosts, hnone]
        rfl
    · rw [if_neg hnone, if_neg]
      · rfl
      · intro hrows
        rw [List.map_eq_nil_iff, active_hosts, List.dedup_eq_nil, List.map_eq_nil_iff] at hrows
        rw [List.countP_eq_length_filter, hrows] at hnone
        exact hnone rfl
  | issue_session_capability =>
    apply result_check
    intro _
    apply result_check
    intro _
    rw [result_query]
    apply result_check
    intro host
    apply result_check
    intro _
    apply result_check
    intro _
    rfl

/-- The call without its audit records, if it is one that changes tables. -/
def unaudited : AuditedCall → Option AdmissionCall
  | .issue_invitation ttl max_sessions max_bytes _ token secret =>
    some (.issue_invitation ttl max_sessions max_bytes token secret)
  | .claim_invitation invitation key token => some (.claim_invitation invitation key token)
  | .revoke_invitation invite_id _ => some (.revoke_invitation invite_id)
  | .expire_due_invitations => some .expire_due_invitations
  | .revoke_host host_id _ => some (.revoke_host host_id)
  | .reserve_host_session host_id session_id => some (.reserve_host_session host_id session_id)
  | .release_host_session host_id session_id => some (.release_host_session host_id session_id)
  | .reconcile_active_sessions _ => some .reconcile_active_sessions
  | .record_host_bytes host_id byte_count => some (.record_host_bytes host_id byte_count)
  | .issue_session_capability .. => none

def at_first_reading (call : Clock × AuditedCall) : Option (Seconds × AdmissionCall) :=
  (unaudited call.2).map fun plain => (call.1 0, plain)

theorem run_tables (secrets : AdmissionSecrets) (clock : Clock) (call : AuditedCall)
    (s : AuditedDatabase) :
    (call.run secrets clock s).2.db =
      (operation secrets (clock 0) s.db call).toOption.getD s.db := by
  rw [← run_operation, result]
  cases h : call.run secrets clock s with
  | mk outcome after =>
    cases outcome with
    | ok => rfl
    | error e =>
      rw [refused_unchanged secrets clock call s e after h]
      rfl

theorem commit_tables (l : AdmissionLedger)
    (outcome : Except RelayAdmissionError (α × AdmissionDatabase)) :
    (l.commit outcome).db = (tables outcome).toOption.getD l.db := by
  cases outcome <;> rfl

theorem step_tables (secrets : AdmissionSecrets) (l : AdmissionLedger)
    (call : Clock × AuditedCall) :
    (l.run secrets (at_first_reading call).toList).db =
      (operation secrets (call.1 0) l.db call.2).toOption.getD l.db := by
  obtain ⟨clock, call⟩ := call
  cases call with
  | record_host_bytes host_id byte_count =>
    show (l.accept (clock 0) host_id byte_count).db =
      (tables (l.db.record_host_bytes (clock 0) host_id byte_count)).toOption.getD l.db
    unfold AdmissionLedger.accept
    split
    · rename_i heq
      rw [heq]
      rfl
    · rename_i heq
      rw [heq]
      split <;> rfl
  | issue_session_capability host_id ttl expires accepted =>
    show l.db =
      (tables (l.db.issue_session_capability (clock 0) host_id ttl expires accepted)).toOption.getD
        l.db
    cases h : l.db.issue_session_capability (clock 0) host_id ttl expires accepted with
    | error => rfl
    | ok found =>
      simp only [AdmissionDatabase.issue_session_capability, bind_ok] at h
      obtain ⟨_, _, _, _, _, _, _, _, _, _, h⟩ := h
      cases h
      rfl
  | expire_due_invitations | reconcile_active_sessions => rfl
  | _ => exact commit_tables l _

/-- **Statements with rollback leave the tables of the ledger**: after any calls, executed one
statement after another with their audit records, the tables are those of the operations alone.
SOURCE: lib/mobile_gateway/relay_admission.py:205-517 -/
theorem audited_tables (secrets : AdmissionSecrets) (calls : List (Clock × AuditedCall))
    (s : AuditedDatabase) (accepted : List AcceptedBytes) :
    (calls.foldl (fun s call => (call.2.run secrets call.1 s).2) s).db =
      (AdmissionLedger.run secrets (calls.filterMap at_first_reading) ⟨s.db, accepted⟩).db := by
  induction calls generalizing s accepted with
  | nil => rfl
  | cons call calls ih =>
    have hstep := step_tables secrets ⟨s.db, accepted⟩ call
    rw [← run_tables secrets call.1 call.2 s] at hstep
    rw [List.foldl_cons, ih _ (AdmissionLedger.run secrets (at_first_reading call).toList
      ⟨s.db, accepted⟩).accepted, ← hstep]
    cases h : at_first_reading call with
    | none =>
      rw [List.filterMap_cons_none h]
      rfl
    | some plain =>
      rw [List.filterMap_cons_some h]
      rfl

def with_record (s : AuditedDatabase) (recorded_at : Seconds) (event : AuditEvent)
    (subject_type : AuditSubject) (subject_id : Text) (detail : AuditDetail) : AuditedDatabase :=
  { s with
    relay_audit := s.relay_audit ++ [{
      event := event
      subject_type := subject_type
      subject_id := subject_id
      recorded_at := recorded_at
      detail := detail }] }

/-- What a claim leaves that is refused because its invitation is due. -/
def due_trace (secrets : AdmissionSecrets) (clock : Clock) (s : AuditedDatabase)
    (invitation host_public_key_b64 : Text) : Option AuditedDatabase :=
  match invite_id_from_secret invitation with
  | .error _ => none
  | .ok invite_id => (s.db.invitation invite_id).bind fun row =>
    if secrets.public_key_ok host_public_key_b64 = true ∧
        row.verifier_b64 = secrets.verifier invitation ∧ row.state = .unused ∧
        row.expires_at ≤ clock 0 then
      some (with_record { s with db := s.db.expire_invitation (clock 0) invite_id } (clock 1)
        .invite_expired .invite invite_id .nothing)
    else none

def sessions_trace (clock : Clock) (s : AuditedDatabase) (host_id session_id : Text) :
    Option AuditedDatabase :=
  (s.db.host (strip host_id)).bind fun host =>
    if strip host_id ≠ [] ∧ strip session_id ≠ [] ∧ host.state = .active ∧
        s.db.session (strip session_id) = none ∧ 0 < host.quota.max_sessions ∧
        host.quota.max_sessions ≤ host.active_sessions then
      some (with_record s (clock 1) .host_session_quota_rejected .host (strip host_id)
        (.limit host.quota.max_sessions))
    else none

def bytes_trace (clock : Clock) (s : AuditedDatabase) (host_id : Text) (byte_count : ℤ) :
    Option AuditedDatabase :=
  (s.db.host (strip host_id)).bind fun host =>
    if strip host_id ≠ [] ∧ 0 ≤ byte_count ∧ host.state = .active ∧
        0 < host.quota.max_bytes_per_day ∧
        host.quota.max_bytes_per_day <
          (AdmissionDatabase.byte_window (clock 0) host).2 + byte_count then
      some (with_record s (clock 1) .host_byte_quota_rejected .host (strip host_id)
        (.limit host.quota.max_bytes_per_day))
    else none

/-- The database that a denied request is to leave, where that is not the one it has found. -/
def owed (secrets : AdmissionSecrets) (clock : Clock) (s : AuditedDatabase) :
    AuditedCall → Option AuditedDatabase
  | .claim_invitation invitation host_public_key_b64 _ =>
    due_trace secrets clock s invitation host_public_key_b64
  | .reserve_host_session host_id session_id => sessions_trace clock s host_id session_id
  | .record_host_bytes host_id byte_count => bytes_trace clock s host_id byte_count
  | _ => none

/-- If the call is refused, it leaves the trace it owes, and nothing else. -/
def Traced (secrets : AdmissionSecrets) (clock : Clock) (s : AuditedDatabase)
    (call : AuditedCall) : Prop :=
  ∀ refusal, (call.run secrets clock s).1 = .error refusal →
    (call.run secrets clock s).2 = (owed secrets clock s call).getD s

theorem claim_due {invitation host_public_key_b64 invite_id : Text} {row : RelayInvitation}
    (hrow : s.db.invitation invite_id = some row)
    (hverifier : row.verifier_b64 = secrets.verifier invitation)
    (hdue : row.state = .unused ∧ row.expires_at ≤ clock 0) (token : UrlSafeToken) :
    claim_body secrets clock invitation host_public_key_b64 invite_id token s =
      (.error not_claimable,
        with_record { s with db := s.db.expire_invitation (clock 0) invite_id } (clock 1)
          .invite_expired .invite invite_id .nothing) := by
  have hrefuse : refuse_due clock invite_id row s =
      (.error not_claimable,
        with_record { s with db := s.db.expire_invitation (clock 0) invite_id } (clock 1)
          .invite_expired .invite invite_id .nothing) := by
    unfold refuse_due
    rw [if_pos hdue]
    rfl
  have hfound : valueOr (some row) not_claimable = .ok row := rfl
  have hcheck : refuseIf (row.verifier_b64 ≠ secrets.verifier invitation) not_claimable =
      .ok () := if_neg (not_not_intro hverifier)
  unfold claim_body
  have hquery : query (fun db => db.invitation invite_id) s = (.ok (some row), s) := by
    rw [← hrow]
    rfl
  rw [Statements.bind_of_ok hquery, Statements.bind_check hfound, Statements.bind_check hcheck]
  exact Statements.bind_of_error hrefuse

theorem active_host {host : RelayHost} (hstate : host.state = .active) :
    require_active_host_row (some host) = .ok host := by
  have hcheck : refuseIf (host.state ≠ .active)
      (RelayAdmissionError.admission "relay host is not active") = .ok () :=
    if_neg (not_not_intro hstate)
  show (refuseIf (host.state ≠ .active)
    (RelayAdmissionError.admission "relay host is not active") >>= fun _ => Except.ok host) = .ok host
  rw [hcheck]
  rfl

theorem reserve_full {host_id session_id : Text} {host : RelayHost}
    (hhost : s.db.host host_id = some host) (hstate : host.state = .active)
    (hsession : s.db.session session_id = none) (hquota : 0 < host.quota.max_sessions)
    (hfull : host.quota.max_sessions ≤ host.active_sessions) :
    reserve_body clock host_id session_id s =
      (.error (.admission "relay host session quota exceeded"),
        with_record s (clock 1) .host_session_quota_rejected .host host_id
          (.limit host.quota.max_sessions)) := by
  have hrefuse : refuse_sessions clock host_id host host.quota.max_sessions s =
      (.error (.admission "relay host session quota exceeded"),
        with_record s (clock 1) .host_session_quota_rejected .host host_id
          (.limit host.quota.max_sessions)) := by
    unfold refuse_sessions
    rw [if_pos hfull]
    rfl
  have hlimit : quota_limit host.quota.max_sessions "max_sessions" =
      .ok host.quota.max_sessions := if_neg (by omega)
  have hquery : query (fun db => db.host host_id) s = (.ok (some host), s) := by
    rw [← hhost]
    rfl
  have hexisting : query (fun db => db.session session_id) s = (.ok none, s) := by
    rw [← hsession]
    rfl
  unfold reserve_body
  rw [Statements.bind_of_ok hquery,
    Statements.bind_check (active_host hstate),
    Statements.bind_of_ok hexisting]
  show reserve_new clock host_id host session_id s = _
  unfold reserve_new
  rw [Statements.bind_check hlimit]
  exact Statements.bind_of_error hrefuse

theorem bytes_full {host_id : Text} {byte_count : ℤ} {host : RelayHost}
    (hhost : s.db.host host_id = some host) (hstate : host.state = .active)
    (hquota : 0 < host.quota.max_bytes_per_day)
    (hfull : host.quota.max_bytes_per_day <
      (AdmissionDatabase.byte_window (clock 0) host).2 + byte_count) :
    bytes_body clock host_id byte_count s =
      (.error (.admission "relay host byte quota exceeded"),
        with_record s (clock 1) .host_byte_quota_rejected .host host_id
          (.limit host.quota.max_bytes_per_day)) := by
  have hrefuse : refuse_bytes clock host_id
      ((AdmissionDatabase.byte_window (clock 0) host).2 + byte_count)
      host.quota.max_bytes_per_day s =
      (.error (.admission "relay host byte quota exceeded"),
        with_record s (clock 1) .host_byte_quota_rejected .host host_id
          (.limit host.quota.max_bytes_per_day)) := by
    unfold refuse_bytes
    rw [if_pos hfull]
    rfl
  have hlimit : quota_limit host.quota.max_bytes_per_day "max_bytes_per_day" =
      .ok host.quota.max_bytes_per_day := if_neg (by omega)
  have hquery : query (fun db => db.host host_id) s = (.ok (some host), s) := by
    rw [← hhost]
    rfl
  unfold bytes_body
  rw [Statements.bind_of_ok hquery,
    Statements.bind_check (active_host hstate),
    Statements.bind_check hlimit]
  exact Statements.bind_of_error hrefuse

theorem void_error {body : AdmissionBody α} (h : body s = (.error e, s')) :
    (transaction body >>= fun _ => pure ()) s = (.error e, s) :=
  Statements.bind_of_error (transaction_error h)

theorem admission_text_ok {value : Text} {name : String} (h : strip value ≠ []) :
    admission_text value name = .ok (strip value) := if_neg h

theorem refused_of_owed {call : AuditedCall} (h : owed secrets clock s call = some s') :
    ∃ refusal, (call.run secrets clock s).1 = .error refusal := by
  cases call with
  | claim_invitation invitation host_public_key_b64 token =>
    change due_trace secrets clock s invitation host_public_key_b64 = some s' at h
    unfold due_trace at h
    split at h
    · cases h
    · rename_i invite_id hid
      obtain ⟨row, hrow, h⟩ := Option.bind_eq_some_iff.mp h
      split at h
      · rename_i hdue
        obtain ⟨hkey, hverifier, hdue⟩ := hdue
        have hcheck : refuseIf (¬ secrets.public_key_ok host_public_key_b64)
            (RelayAdmissionError.admission "relay host public key must be Ed25519 raw public key") =
            .ok () :=
          if_neg (not_not_intro hkey)
        refine ⟨not_claimable, ?_⟩
        rw [AuditedCall.run, Statements.bind_check hid,
          Statements.bind_check hcheck,
          void_error (claim_due hrow hverifier hdue token)]
      · cases h
  | reserve_host_session host_id session_id =>
    change sessions_trace clock s host_id session_id = some s' at h
    unfold sessions_trace at h
    obtain ⟨host, hhost, h⟩ := Option.bind_eq_some_iff.mp h
    split at h
    · rename_i hfull
      obtain ⟨hid, hsession_id, hstate, hsession, hquota, hfull⟩ := hfull
      refine ⟨.admission "relay host session quota exceeded", ?_⟩
      rw [AuditedCall.run, Statements.bind_check (admission_text_ok hid),
        Statements.bind_check (admission_text_ok hsession_id),
        void_error (reserve_full hhost hstate hsession hquota hfull)]
    · cases h
  | record_host_bytes host_id byte_count =>
    change bytes_trace clock s host_id byte_count = some s' at h
    unfold bytes_trace at h
    obtain ⟨host, hhost, h⟩ := Option.bind_eq_some_iff.mp h
    split at h
    · rename_i hfull
      obtain ⟨hid, hcount, hstate, hquota, hfull⟩ := hfull
      have hcheck : refuseIf (byte_count < 0)
          (RelayAdmissionError.admission "relay host byte count must be non-negative") = .ok () :=
        if_neg (by omega)
      refine ⟨.admission "relay host byte quota exceeded", ?_⟩
      rw [AuditedCall.run, Statements.bind_check (admission_text_ok hid),
        Statements.bind_check hcheck,
        transaction_error (bytes_full hhost hstate hquota hfull)]
    · cases h
  | _ => cases h

theorem ne_of_owed {call : AuditedCall} (h : owed secrets clock s call = some s') : s' ≠ s := by
  have hrecord : ∀ (after : AuditedDatabase) (recorded_at : Seconds) (event : AuditEvent)
      (subject_type : AuditSubject) (subject_id : Text) (detail : AuditDetail),
      after.relay_audit = s.relay_audit →
        with_record after recorded_at event subject_type subject_id detail ≠ s := by
    intro after recorded_at event subject_type subject_id detail hsame heq
    have hlength := congrArg (fun db => db.relay_audit.length) heq
    simp only [with_record, hsame, List.length_append, List.length_singleton] at hlength
    omega
  cases call with
  | claim_invitation invitation host_public_key_b64 token =>
    change due_trace secrets clock s invitation host_public_key_b64 = some s' at h
    unfold due_trace at h
    split at h
    · cases h
    · obtain ⟨row, hrow, h⟩ := Option.bind_eq_some_iff.mp h
      split at h
      · rw [← Option.some_inj.mp h]
        exact hrecord _ _ _ _ _ _ rfl
      · cases h
  | reserve_host_session host_id session_id | record_host_bytes host_id byte_count =>
    obtain ⟨host, hhost, h⟩ := Option.bind_eq_some_iff.mp h
    split at h
    · rw [← Option.some_inj.mp h]
      exact hrecord _ _ _ _ _ _ rfl
    · cases h
  | _ => cases h

/-- **A denied request leaves what it is to leave exactly if that is nothing**: no trace of a due
invitation or of an exceeded quota survives the transaction that is rolled back. -/
theorem denied_requests_traced (secrets : AdmissionSecrets) (clock : Clock) (s : AuditedDatabase)
    (call : AuditedCall) : Traced secrets clock s call ↔ owed secrets clock s call = none := by
  constructor
  · intro h
    cases howed : owed secrets clock s call with
    | none => rfl
    | some trace =>
      exfalso
      obtain ⟨refusal, hrefused⟩ := refused_of_owed howed
      have hleft := h refusal hrefused
      have hsame := refused_unchanged secrets clock call s refusal _ (Prod.ext hrefused rfl)
      rw [howed] at hleft
      exact ne_of_owed howed (hleft.symm.trans hsame)
  · intro h refusal hrefused
    rw [h]
    exact refused_unchanged secrets clock call s refusal _ (Prod.ext hrefused rfl)

def plainSecrets : AdmissionSecrets where
  verifier := fun invitation => invitation
  public_key_ok := fun _ => true
  public_key_sha256 := fun key => key

def plainInvitation : Text := asciiText "ccb-relay-inv-v2.rinv_a.b"

/-- An invitation of two minutes ago, for one minute. -/
def dueDatabase : AuditedDatabase where
  db :=
    { AdmissionDatabase.empty with
      invitations := [{
        invite_id := asciiText "rinv_a"
        verifier_b64 := plainInvitation
        state := .unused
        issued_at := 1
        expires_at := 61
        consumed_at := none
        revoked_at := none
        host_id := none
        quota := { max_sessions := 4, max_bytes_per_day := 1024 }
        updated_at := 1 }] }
  relay_audit := []

def lateClaim : AuditedCall := .claim_invitation plainInvitation [] ⟨[], rfl⟩

/-- The claim is refused as due, but the invitation is unused as before, without a record. -/
theorem late_claim_untraced :
    lateClaim.run plainSecrets (fun _ => ⟨121, by decide⟩) dueDatabase =
        (.error not_claimable, dueDatabase) ∧
      owed plainSecrets (fun _ => ⟨121, by decide⟩) dueDatabase lateClaim ≠ none := by
  decide

end ClaudeCodeBridge.Analysis.DeniedRequests
