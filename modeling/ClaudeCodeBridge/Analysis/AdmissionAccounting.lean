import ClaudeCodeBridge.Model.RelayAdmission

/-!
# The accounts of relay admission

A host's counter of sessions, the rows of its sessions and its byte window are changed by
nine operations in any order; the accounts that they keep are one invariant.

The ladder: what an operation may do to the database (`AdmissionChange`, one lemma for
each operation); the accounts are kept by a change (`accounts_change`), and what is
settled stays so (`kept_change`); the bytes of a window (`windows_step`); the runs
(`windows_run`, `timely_run`); the result (`admission_accounts`).
-/

set_option autoImplicit false

namespace ClaudeCodeBridge.Analysis.Relay

open Program
open Model.Relay
open Model.Relay.AdmissionDatabase

variable {secrets : AdmissionSecrets} {service : Prop} {now : Seconds} {db db' : AdmissionDatabase}

def activeOf (host_id : Text) (row : RelayHostSession) : Bool :=
  row.host_id = host_id && row.state = .active

def release (now : Seconds) (row : RelayHostSession) : RelayHostSession :=
  { row with state := .released, released_at := some now }

section

variable (now : Seconds) (host_id session_id : Text) (db : AdmissionDatabase)

def claimedBy (secrets : AdmissionSecrets) (row : RelayInvitation) (key : Text) :
    AdmissionDatabase :=
  { db with
    invitations := Table.update (fun x => x.invite_id = row.invite_id && x.state = .unused)
      (fun x => { x with
        state := .consumed, consumed_at := some now, host_id := some host_id, updated_at := now })
      db.invitations
    hosts := db.hosts ++ [claimed_host secrets now row host_id key] }

def hostRevoked : AdmissionDatabase :=
  { db with
    hosts := Table.update (fun row => row.host_id = host_id && row.state = .active)
      (fun row => { row with
        state := .revoked, revoked_at := some now, active_sessions := 0, updated_at := now })
      db.hosts
    sessions := Table.update (activeOf host_id) (release now) db.sessions }

def reservedFor : AdmissionDatabase :=
  { db with
    hosts := Table.update (fun row => row.host_id = host_id && row.state = .active)
      (fun row => { row with active_sessions := row.active_sessions + 1, updated_at := now })
      db.hosts
    sessions := db.sessions ++ [{
      session_id := session_id
      host_id := host_id
      state := .active
      reserved_at := now
      released_at := none }] }

def releasedFor : AdmissionDatabase :=
  { db with
    hosts := Table.update (fun row => row.host_id = host_id && row.state = .active)
      (fun row => { row with
        active_sessions := if row.active_sessions > 0 then row.active_sessions - 1 else 0
        updated_at := now })
      db.hosts
    sessions := Table.update (fun row => row.session_id = session_id && row.state = .active)
      (release now) db.sessions }

def reconciled : AdmissionDatabase :=
  { db with
    hosts := Table.update (fun row => row.active_sessions ≠ 0)
      (fun row => { row with active_sessions := 0, updated_at := now }) db.hosts
    sessions := Table.update (fun row => row.state = .active) (release now) db.sessions }

end

/-- The changes of the operations, with what they have checked; those of sessions are made
by the service only. -/
inductive AdmissionChange (service : Prop) (now : Seconds) (db : AdmissionDatabase) :
    AdmissionDatabase → Prop
  | same : AdmissionChange service now db db
  | issued (row : RelayInvitation)
      (hfresh : row.invite_id ∉ db.invitations.map fun x => x.invite_id)
      (hunused : row.state = .unused) (hsessions : 0 < row.quota.max_sessions)
      (hbytes : 0 < row.quota.max_bytes_per_day) :
      AdmissionChange service now db { db with invitations := db.invitations ++ [row] }
  | claimed (secrets : AdmissionSecrets) (row : RelayInvitation) (host_id key : Text)
      (token : UrlSafeToken) (hid : host_id = host_id_of token)
      (hrow : row ∈ db.invitations) (hunused : row.state = .unused)
      (hfresh : host_id ∉ db.hosts.map fun x => x.host_id) :
      AdmissionChange service now db (claimedBy now host_id db secrets row key)
  | settled (p : RelayInvitation → Bool) (f : RelayInvitation → RelayInvitation)
      (hp : ∀ x, p x = true → x.state = .unused)
      (hf : ∀ x, (f x).invite_id = x.invite_id ∧ (f x).quota = x.quota) :
      AdmissionChange service now db { db with invitations := Table.update p f db.invitations }
  | host_revoked (host_id : Text) :
      AdmissionChange service now db (hostRevoked now host_id db)
  | reserved (hservice : service) (host : RelayHost) (session_id : Text) (hhost : host ∈ db.hosts)
      (hactive : host.state = .active)
      (hfresh : session_id ∉ db.sessions.map fun x => x.session_id)
      (hroom : host.active_sessions < host.quota.max_sessions) :
      AdmissionChange service now db (reservedFor now host.host_id session_id db)
  | released (hservice : service) (host : RelayHost) (session : RelayHostSession)
      (hhost : host ∈ db.hosts) (hactive : host.state = .active) (hsession : session ∈ db.sessions)
      (hof : session.host_id = host.host_id) (hopen : session.state = .active) :
      AdmissionChange service now db (releasedFor now host.host_id session.session_id db)
  | reconciled (hservice : service) :
      AdmissionChange service now db (reconciled now db)

theorem require_active_ok {row : Option RelayHost} {host : RelayHost}
    (h : require_active_host_row row = .ok host) : row = some host ∧ host.state = .active := by
  simp only [require_active_host_row, bind_ok, valueOr_ok, refuseIf_ok, pure_ok] at h
  obtain ⟨found, hfound, _, hactive, rfl⟩ := h
  exact ⟨hfound, not_not.mp hactive⟩

theorem quota_ok {max_sessions max_bytes : ℤ} {quota : Quota}
    (h : quota_of max_sessions max_bytes = .ok quota) :
    0 < quota.max_sessions ∧ 0 < quota.max_bytes_per_day := by
  simp only [quota_of, bind_ok, refuseIf_ok, pure_ok] at h
  obtain ⟨_, hsessions, _, hbytes, rfl⟩ := h
  exact ⟨not_le.mp hsessions, not_le.mp hbytes⟩

variable {host_id : Text}

theorem host_ok {host : RelayHost} (h : db.host host_id = some host) :
    host ∈ db.hosts ∧ host.host_id = host_id := Table.mem_of_select h

variable {session_id : Text}

theorem issue_change {ttl max_sessions max_bytes : ℤ} {token secret : UrlSafeToken}
    {invitation : Text}
    (h : db.issue_invitation secrets now ttl max_sessions max_bytes token secret =
      .ok (invitation, db')) : AdmissionChange service now db db' := by
  simp only [issue_invitation, bind_ok, refuseIf_ok, valueOr_ok, pure_ok, Prod.mk.injEq] at h
  obtain ⟨_, _, quota, hquota, _, _, rows, hrows, _, rfl⟩ := h
  obtain ⟨hfresh, rfl⟩ := Table.insert_some hrows
  obtain ⟨hsessions, hbytes⟩ := quota_ok hquota
  exact .issued _ hfresh rfl hsessions hbytes

theorem claim_change {invitation key : Text} {token : UrlSafeToken} {host : RelayHost}
    (h : db.claim_invitation secrets now invitation key token = .ok (host, db')) :
    AdmissionChange service now db db' := by
  simp only [claim_invitation, bind_ok, refuseIf_ok, valueOr_ok, pure_ok, Prod.mk.injEq] at h
  obtain ⟨invite_id, _, _, _, row, hrow, _, _, _, _, _, hunused, hosts, hhosts, _, _, _, rfl⟩ := h
  obtain ⟨hmem, rfl⟩ := Table.mem_of_select hrow
  obtain ⟨hfresh, rfl⟩ := Table.insert_some hhosts
  exact .claimed secrets row _ key token rfl hmem (not_not.mp hunused) hfresh

variable {row : RelayInvitation}

theorem revoke_invitation_change {invite_id : Text}
    (h : db.revoke_invitation now invite_id = .ok (row, db')) : AdmissionChange service now db db' := by
  unfold revoke_invitation at h
  cases hrow : db.invitation invite_id with
  | none => simp [hrow] at h
  | some found =>
    rw [hrow] at h
    dsimp only at h
    split at h
    · simp only [Except.ok.injEq, Prod.mk.injEq] at h
      obtain ⟨_, rfl⟩ := h
      exact .settled _ _ (fun x hx => by simp at hx; exact hx.2) fun x => ⟨rfl, rfl⟩
    · simp only [Except.ok.injEq, Prod.mk.injEq] at h
      obtain ⟨_, rfl⟩ := h
      exact .same

theorem expire_change (db : AdmissionDatabase) (invite_id : Text) :
    AdmissionChange service now db (db.expire_invitation now invite_id) :=
  .settled _ _ (fun x hx => by simp at hx; exact hx.2) fun x => ⟨rfl, rfl⟩

theorem revoke_host_change {row : RelayHost}
    (h : db.revoke_host now host_id = .ok (row, db')) : AdmissionChange service now db db' := by
  unfold revoke_host at h
  cases hrow : db.host host_id with
  | none => simp [hrow] at h
  | some found =>
    rw [hrow] at h
    dsimp only at h
    split at h
    · simp only [Except.ok.injEq, Prod.mk.injEq] at h
      obtain ⟨_, rfl⟩ := h
      exact .host_revoked host_id
    · simp only [Except.ok.injEq, Prod.mk.injEq] at h
      obtain ⟨_, rfl⟩ := h
      exact .same

theorem reserve_change {idempotent : Bool}
    (h : db.reserve_host_session now host_id session_id = .ok (idempotent, db')) :
    AdmissionChange True now db db' := by
  simp only [reserve_host_session, bind_ok] at h
  obtain ⟨host_id, _, session_id, _, host, hhost, h⟩ := h
  obtain ⟨hfound, hactive⟩ := require_active_ok hhost
  obtain ⟨hmem, rfl⟩ := host_ok hfound
  cases hsession : db.session session_id with
  | some existing =>
    simp only [hsession, bind_ok, refuseIf_ok, pure_ok, Prod.mk.injEq] at h
    obtain ⟨_, _, _, rfl⟩ := h
    exact .same
  | none =>
    simp only [hsession, bind_ok, refuseIf_ok, valueOr_ok, pure_ok, Prod.mk.injEq] at h
    obtain ⟨limit, hlimit, _, hroom, rows, hrows, _, rfl⟩ := h
    obtain ⟨hfresh, rfl⟩ := Table.insert_some hrows
    have hlimit' : host.quota.max_sessions = limit := by
      unfold quota_limit at hlimit
      split at hlimit
      · simp at hlimit
      · exact Except.ok.inj hlimit
    exact .reserved trivial host session_id hmem hactive hfresh (by rw [hlimit']; exact not_le.mp hroom)

theorem release_change (h : db.release_host_session now host_id session_id = .ok ((), db')) :
    AdmissionChange True now db db' := by
  simp only [release_host_session, bind_ok, refuseIf_ok, valueOr_ok] at h
  obtain ⟨host_id, _, session_id, _, host, hhost, session, hsession, _, hof, h⟩ := h
  obtain ⟨hfound, hactive⟩ := require_active_ok hhost
  obtain ⟨hmem, rfl⟩ := host_ok hfound
  obtain ⟨hsmem, rfl⟩ := Table.mem_of_select hsession
  split at h
  · rename_i hopen
    simp only [pure_ok, Prod.mk.injEq] at h
    obtain ⟨_, rfl⟩ := h
    exact .released trivial host session hmem hactive hsmem (not_not.mp hof) hopen
  · simp only [pure_ok, Prod.mk.injEq] at h
    obtain ⟨_, rfl⟩ := h
    exact .same

theorem reconcile_change (db : AdmissionDatabase) :
    AdmissionChange True now db (db.reconcile_active_sessions now).2 := by
  unfold reconcile_active_sessions
  dsimp only
  split
  · exact .same
  · exact .reconciled trivial

/-- `record_host_bytes` where it accepts: bytes in the window that is open now. -/
def recorded (db : AdmissionDatabase) (now : Seconds) (host : RelayHost) (byte_count : ℤ) :
    AdmissionDatabase :=
  { db with
    hosts := Table.update (fun row => row.host_id = host.host_id && row.state = .active)
      (fun row => { row with
        bytes_used := (byte_window now host).2 + byte_count
        bytes_window_started_at := (byte_window now host).1, updated_at := now })
      db.hosts }

theorem record_ok {byte_count : ℤ}
    (h : db.record_host_bytes now host_id byte_count = .ok ((), db')) :
    ∃ host ∈ db.hosts, host.host_id = strip host_id ∧ host.state = .active ∧ 0 ≤ byte_count ∧
      (byte_window now host).2 + byte_count ≤ host.quota.max_bytes_per_day ∧
      db' = recorded db now host byte_count := by
  simp only [record_host_bytes, bind_ok, refuseIf_ok, pure_ok, Prod.mk.injEq] at h
  obtain ⟨name, hname, _, hcount, host, hhost, limit, hlimit, _, hroom, _, rfl⟩ := h
  obtain ⟨hfound, hactive⟩ := require_active_ok hhost
  obtain ⟨hmem, rfl⟩ := host_ok hfound
  have hlimit' : host.quota.max_bytes_per_day = limit := by
    unfold quota_limit at hlimit
    split at hlimit
    · simp at hlimit
    · exact Except.ok.inj hlimit
  have hname' : host.host_id = strip host_id := by
    unfold admission_text at hname
    dsimp only at hname
    split at hname
    · simp at hname
    · exact (Except.ok.inj hname).symm
  exact ⟨host, hmem, hname', hactive, not_lt.mp hcount, by rw [hlimit']; exact not_lt.mp hroom, rfl⟩

structure HostAccounts (sessions : List RelayHostSession) (row : RelayHost) : Prop where
  counted : row.active_sessions = sessions.countP (activeOf row.host_id)
  bounded : row.active_sessions ≤ row.quota.max_sessions
  idle : row.state = .revoked → row.active_sessions = 0
  bytes : 0 ≤ row.bytes_used ∧ row.bytes_used ≤ row.quota.max_bytes_per_day
  quota : 0 < row.quota.max_sessions ∧ 0 < row.quota.max_bytes_per_day
  window : 0 < row.bytes_window_started_at

structure Accounts (db : AdmissionDatabase) : Prop where
  invite_ids : (db.invitations.map fun row => row.invite_id).Nodup
  host_ids : (db.hosts.map fun row => row.host_id).Nodup
  session_ids : (db.sessions.map fun row => row.session_id).Nodup
  one_host : (db.hosts.map fun row => row.invitation_id).Nodup
  consumed : ∀ row ∈ db.hosts, ∃ i ∈ db.invitations,
    i.invite_id = row.invitation_id ∧ i.state = .consumed
  quotas : ∀ i ∈ db.invitations, 0 < i.quota.max_sessions ∧ 0 < i.quota.max_bytes_per_day
  session_host : ∀ x ∈ db.sessions, x.host_id ∈ db.hosts.map fun row => row.host_id
  hosts : ∀ row ∈ db.hosts, HostAccounts db.sessions row

theorem accounts_empty : Accounts .empty := by
  refine ⟨?_, ?_, ?_, ?_, ?_, ?_, ?_, ?_⟩ <;> simp [AdmissionDatabase.empty]

section

variable (hdb : Accounts db)

include hdb

theorem chosen_host {host row : RelayHost} (hhost : host ∈ db.hosts) (hrow : row ∈ db.hosts)
    (h : (row.host_id = host.host_id && row.state = .active : Bool) = true) : row = host := by
  simp only [Bool.and_eq_true, decide_eq_true_eq] at h
  exact Table.eq_of_key hdb.host_ids hrow hhost h.1

/-- An update of hosts that keeps their ids and leaves the sessions alone, or at least the
ids of the sessions and their hosts. -/
theorem accounts_hosts {p : RelayHost → Bool} {f : RelayHost → RelayHost}
    {sessions : List RelayHostSession} (hid : ∀ row, (f row).host_id = row.host_id)
    (hinvitation : ∀ row, (f row).invitation_id = row.invitation_id)
    (hnodup : (sessions.map fun row => row.session_id).Nodup)
    (hof : ∀ x ∈ sessions, x.host_id ∈ db.hosts.map fun row => row.host_id)
    (hhosts : ∀ row ∈ db.hosts, HostAccounts sessions (if p row then f row else row)) :
    Accounts { db with hosts := Table.update p f db.hosts, sessions := sessions } := by
  have hids : (Table.update p f db.hosts).map (fun row => row.host_id) =
      db.hosts.map fun row => row.host_id := Table.map_update hid
  have hinvitations : (Table.update p f db.hosts).map (fun row => row.invitation_id) =
      db.hosts.map fun row => row.invitation_id := Table.map_update hinvitation
  refine ⟨hdb.invite_ids, ?_, hnodup, ?_, ?_, hdb.quotas, ?_, ?_⟩
  · rw [hids]
    exact hdb.host_ids
  · rw [hinvitations]
    exact hdb.one_host
  · intro row hrow
    obtain ⟨old, hold, rfl⟩ := Table.mem_update.mp hrow
    obtain ⟨i, hi, hiid, histate⟩ := hdb.consumed old hold
    refine ⟨i, hi, ?_, histate⟩
    rw [hiid]
    split
    · exact (hinvitation old).symm
    · rfl
  · intro x hx
    rw [hids]
    exact hof x hx
  · intro row hrow
    obtain ⟨old, hold, rfl⟩ := Table.mem_update.mp hrow
    exact hhosts old hold

theorem sessions_update {p : RelayHostSession → Bool} {f : RelayHostSession → RelayHostSession}
    (hid : ∀ x, (f x).session_id = x.session_id) (hof : ∀ x, (f x).host_id = x.host_id) :
    ((Table.update p f db.sessions).map fun row => row.session_id).Nodup ∧
      ∀ x ∈ Table.update p f db.sessions, x.host_id ∈ db.hosts.map fun row => row.host_id := by
  refine ⟨Table.nodup_update hid hdb.session_ids, ?_⟩
  intro x hx
  obtain ⟨old, hold, rfl⟩ := Table.mem_update.mp hx
  have hold' := hdb.session_host old hold
  split
  · rw [hof old]
    exact hold'
  · exact hold'

theorem accounts_issued (hfresh : row.invite_id ∉ db.invitations.map fun x => x.invite_id)
    (hquota : 0 < row.quota.max_sessions ∧ 0 < row.quota.max_bytes_per_day) :
    Accounts { db with invitations := db.invitations ++ [row] } := by
  refine { hdb with
    invite_ids := Table.nodup_append hdb.invite_ids hfresh
    consumed := ?_
    quotas := Table.forall_append hdb.quotas hquota }
  intro host hhost
  obtain ⟨i, hi, h⟩ := hdb.consumed host hhost
  exact ⟨i, List.mem_append_left _ hi, h⟩

variable {p : RelayInvitation → Bool} {f : RelayInvitation → RelayInvitation}

theorem consumed_update (hp : ∀ x, p x = true → x.state = .unused)
    {row : RelayHost} (hrow : row ∈ db.hosts) :
    ∃ i ∈ Table.update p f db.invitations,
      i.invite_id = row.invitation_id ∧ i.state = .consumed := by
  obtain ⟨i, hi, hid, hstate⟩ := hdb.consumed row hrow
  refine ⟨i, Table.mem_update.mpr ⟨i, hi, if_neg ?_⟩, hid, hstate⟩
  intro hchosen
  have hunused := hp i hchosen
  rw [hstate] at hunused
  exact absurd hunused (by decide)

theorem quotas_update (hf : ∀ x, (f x).quota = x.quota) :
    ∀ i ∈ Table.update p f db.invitations,
      0 < i.quota.max_sessions ∧ 0 < i.quota.max_bytes_per_day := by
  refine Table.forall_update hdb.quotas fun i hi _ => ?_
  rw [hf i]
  exact hdb.quotas i hi

theorem accounts_settled (hp : ∀ x, p x = true → x.state = .unused)
    (hf : ∀ x, (f x).invite_id = x.invite_id ∧ (f x).quota = x.quota) :
    Accounts { db with invitations := Table.update p f db.invitations } :=
  { hdb with
    invite_ids := Table.nodup_update (fun x => (hf x).1) hdb.invite_ids
    consumed := fun _ hrow => consumed_update hdb hp hrow
    quotas := quotas_update hdb fun x => (hf x).2 }

theorem unclaimed (hrow : row ∈ db.invitations) (hunused : row.state = .unused) :
    row.invite_id ∉ db.hosts.map fun x => x.invitation_id := by
  intro hmem
  obtain ⟨host, hhost, hid⟩ := List.mem_map.mp hmem
  obtain ⟨i, hi, hiid, histate⟩ := hdb.consumed host hhost
  have hsame : i = row := Table.eq_of_key hdb.invite_ids hi hrow (hiid.trans hid)
  rw [hsame, hunused] at histate
  exact absurd histate (by decide)

theorem accounts_claimed (secrets : AdmissionSecrets) (key : Text) (hrow : row ∈ db.invitations)
    (hunused : row.state = .unused) (hfresh : host_id ∉ db.hosts.map fun x => x.host_id) :
    Accounts (claimedBy now host_id db secrets row key) := by
  have hp : ∀ x : RelayInvitation,
      (x.invite_id = row.invite_id && x.state = .unused : Bool) = true → x.state = .unused := by
    intro x hx
    simp only [Bool.and_eq_true, decide_eq_true_eq] at hx
    exact hx.2
  refine ⟨Table.nodup_update (fun x => rfl) hdb.invite_ids, Table.nodup_append hdb.host_ids hfresh,
    hdb.session_ids, Table.nodup_append hdb.one_host (unclaimed hdb hrow hunused), ?_,
    quotas_update hdb fun x => rfl, ?_, ?_⟩
  · refine Table.forall_append (fun host hhost => consumed_update hdb hp hhost) ?_
    refine ⟨_, Table.mem_update.mpr ⟨row, hrow, rfl⟩, ?_⟩
    simp [hunused, claimed_host]
  · intro x hx
    unfold claimedBy
    rw [List.map_append]
    exact List.mem_append_left _ (hdb.session_host x hx)
  · refine Table.forall_append hdb.hosts ?_
    have hquota := hdb.quotas row hrow
    refine ⟨?_, hquota.1.le, fun _ => rfl, ⟨le_refl _, hquota.2.le⟩, hquota, now.2⟩
    have hnone : db.sessions.countP (activeOf host_id) = 0 := by
      rw [List.countP_eq_zero]
      intro x hx hactive
      simp only [activeOf, Bool.and_eq_true, decide_eq_true_eq] at hactive
      exact hfresh (hactive.1 ▸ hdb.session_host x hx)
    show (0 : ℤ) = (db.sessions.countP (activeOf host_id) : ℤ)
    rw [hnone]
    rfl

end

theorem activeOf_release (host_id : Text) (row : RelayHostSession) :
    activeOf host_id (release now row) = false := by
  simp [activeOf, release]

theorem accounts_host_revoked (hdb : Accounts db) (host_id : Text) :
    Accounts (hostRevoked now host_id db) := by
  obtain ⟨hnodup, hof⟩ := sessions_update hdb (p := activeOf host_id)
    (f := release now)
    (fun x => rfl) fun x => rfl
  refine accounts_hosts hdb (fun _ => rfl) (fun _ => rfl) hnodup hof fun row hrow => ?_
  have hrowok := hdb.hosts row hrow
  by_cases hid : row.host_id = host_id
  · have hnone : (Table.update (activeOf host_id) (release now) db.sessions).countP
          (activeOf row.host_id) = 0 := by
      rw [hid]
      exact Table.countP_update_eq_zero (fun x _ hx => hx)
        fun x _ _ => activeOf_release host_id x
    split
    · exact ⟨by rw [hnone]; rfl, hrowok.quota.1.le, fun _ => rfl, hrowok.bytes, hrowok.quota,
        hrowok.window⟩
    · rename_i hnot
      have hrevoked : row.state = .revoked := by
        cases hstate : row.state with
        | active => simp [hid, hstate] at hnot
        | revoked => rfl
      refine { hrowok with counted := ?_ }
      rw [hnone, hrowok.idle hrevoked]
      rfl
  · have hsame : (Table.update (activeOf host_id) (release now) db.sessions).countP
          (activeOf row.host_id) = db.sessions.countP (activeOf row.host_id) := by
      refine Table.countP_update_of_keeps fun x _ hx => ?_
      rw [activeOf_release]
      simp only [activeOf, Bool.and_eq_true, decide_eq_true_eq] at hx
      have hother : x.host_id ≠ row.host_id := fun h => hid (h.symm.trans hx.1)
      simp [activeOf, hother]
    have hnot : ¬ (row.host_id = host_id && row.state = .active : Bool) = true := by simp [hid]
    rw [if_neg hnot]
    exact { hrowok with counted := by rw [hsame]; exact hrowok.counted }

theorem accounts_reserved (hdb : Accounts db) {host : RelayHost} (hhost : host ∈ db.hosts)
    (hactive : host.state = .active) (hfresh : session_id ∉ db.sessions.map fun x => x.session_id)
    (hroom : host.active_sessions < host.quota.max_sessions) :
    Accounts (reservedFor now host.host_id session_id db) := by
  refine accounts_hosts hdb (fun _ => rfl) (fun _ => rfl) (Table.nodup_append hdb.session_ids hfresh)
    (Table.forall_append hdb.session_host (List.mem_map.mpr ⟨host, hhost, rfl⟩)) fun row hrow => ?_
  have hrowok := hdb.hosts row hrow
  split
  · rename_i hchosen
    have hsame := chosen_host hdb hhost hrow hchosen
    subst hsame
    refine ⟨?_, Int.add_one_le_iff.mpr hroom, ?_, hrowok.bytes, hrowok.quota, hrowok.window⟩
    · have hone : [({
          session_id := session_id
          host_id := row.host_id
          state := .active
          reserved_at := now
          released_at := none } : RelayHostSession)].countP (activeOf row.host_id) = 1 := by
        simp [activeOf]
      show row.active_sessions + 1 = _
      rw [List.countP_append, hone, hrowok.counted]
      push_cast
      rfl
    · intro hrevoked
      rw [hactive] at hrevoked
      exact absurd hrevoked (by decide)
  · rename_i hnot
    refine { hrowok with counted := ?_ }
    have hother : host.host_id ≠ row.host_id := by
      intro h
      have hsame := Table.eq_of_key hdb.host_ids hrow hhost h.symm
      subst hsame
      simp [hactive] at hnot
    rw [List.countP_append, hrowok.counted]
    simp [activeOf, hother]

theorem accounts_released (hdb : Accounts db) {host : RelayHost} {session : RelayHostSession}
    (hhost : host ∈ db.hosts) (hactive : host.state = .active) (hsession : session ∈ db.sessions)
    (hof : session.host_id = host.host_id) (hopen : session.state = .active) :
    Accounts (releasedFor now host.host_id session.session_id db) := by
  obtain ⟨hnodup, hofs⟩ := sessions_update hdb
    (p := fun row => row.session_id = session.session_id && row.state = .active)
    (f := release now)
    (fun x => rfl) fun x => rfl
  refine accounts_hosts hdb (fun _ => rfl) (fun _ => rfl) hnodup hofs fun row hrow => ?_
  have hrowok := hdb.hosts row hrow
  have hchosen : ∀ x ∈ db.sessions,
      (x.session_id = session.session_id && x.state = .active : Bool) = true ↔
        x.session_id = session.session_id := by
    intro x hx
    simp only [Bool.and_eq_true, decide_eq_true_eq]
    refine ⟨fun h => h.1, fun h => ⟨h, ?_⟩⟩
    rw [Table.eq_of_key hdb.session_ids hx hsession h, hopen]
  by_cases hid : row.host_id = host.host_id
  · have hsame := Table.eq_of_key hdb.host_ids hrow hhost hid
    subst hsame
    have hcounted : activeOf row.host_id session = true := by simp [activeOf, hof, hopen]
    have hcount := Table.countP_update_single (q := activeOf row.host_id)
      (f := release now)
      hdb.session_ids hsession hchosen hcounted (activeOf_release _ _)
    have hbefore := hrowok.counted
    have hpositive : row.active_sessions > 0 := by
      rw [hbefore, ← hcount]
      push_cast
      omega
    rw [if_pos (by simp [hactive])]
    refine ⟨?_, ?_, ?_, hrowok.bytes, hrowok.quota, hrowok.window⟩
    · show (if row.active_sessions > 0 then row.active_sessions - 1 else 0) = _
      rw [if_pos hpositive, hbefore, ← hcount]
      push_cast
      omega
    · show (if row.active_sessions > 0 then row.active_sessions - 1 else 0) ≤ row.quota.max_sessions
      have hbounded := hrowok.bounded
      rw [if_pos hpositive]
      omega
    · intro hrevoked
      rw [hactive] at hrevoked
      exact absurd hrevoked (by decide)
  · rw [if_neg (by simp [hid])]
    refine { hrowok with counted := ?_ }
    rw [hrowok.counted, Table.countP_update_of_keeps]
    intro x hx hp
    have hsame := Table.eq_of_key hdb.session_ids hx hsession ((hchosen x hx).mp hp)
    have hother : host.host_id ≠ row.host_id := fun h => hid h.symm
    rw [activeOf_release, hsame]
    simp [activeOf, hof, hother]

theorem accounts_reconciled (hdb : Accounts db) :
    Accounts (reconciled now db) := by
  obtain ⟨hnodup, hof⟩ := sessions_update hdb (p := fun row => row.state = .active)
    (f := release now)
    (fun x => rfl) fun x => rfl
  refine accounts_hosts hdb (fun _ => rfl) (fun _ => rfl) hnodup hof fun row hrow => ?_
  have hrowok := hdb.hosts row hrow
  have hnone : (Table.update (fun row => row.state = .active)
      (release now)
      db.sessions).countP (activeOf row.host_id) = 0 := by
    refine Table.countP_update_eq_zero (fun x _ hx => ?_) fun x _ _ => activeOf_release _ _
    simp only [activeOf, Bool.and_eq_true] at hx
    exact hx.2
  split
  · exact ⟨by rw [hnone]; rfl, hrowok.quota.1.le, fun _ => rfl, hrowok.bytes, hrowok.quota,
      hrowok.window⟩
  · rename_i hnot
    have hzero : row.active_sessions = 0 := by simpa using hnot
    refine { hrowok with counted := ?_ }
    rw [hnone, hzero]
    rfl

theorem byte_window_ok (now : Seconds) {host : RelayHost}
    (hwindow : 0 < host.bytes_window_started_at) (hbytes : 0 ≤ host.bytes_used) :
    0 < (byte_window now host).1 ∧ 0 ≤ (byte_window now host).2 := by
  unfold byte_window
  split
  · exact ⟨now.2, le_refl _⟩
  · exact ⟨hwindow, hbytes⟩

theorem accounts_recorded (now : Seconds) (hdb : Accounts db) {host : RelayHost} {byte_count : ℤ}
    (hhost : host ∈ db.hosts) (hcount : 0 ≤ byte_count)
    (hroom : (byte_window now host).2 + byte_count ≤ host.quota.max_bytes_per_day) :
    Accounts (recorded db now host byte_count) := by
  refine accounts_hosts hdb (fun _ => rfl) (fun _ => rfl) hdb.session_ids hdb.session_host
    fun row hrow => ?_
  have hrowok := hdb.hosts row hrow
  split
  · rename_i hchosen
    have hsame := chosen_host hdb hhost hrow hchosen
    subst hsame
    obtain ⟨hwindow, hused⟩ := byte_window_ok now hrowok.window hrowok.bytes.1
    exact ⟨hrowok.counted, hrowok.bounded, hrowok.idle, ⟨add_nonneg hused hcount, hroom⟩,
      hrowok.quota, hwindow⟩
  · exact hrowok

theorem accounts_change (hdb : Accounts db) (h : AdmissionChange service now db db') : Accounts db' := by
  cases h with
  | same => exact hdb
  | issued row hfresh hunused hsessions hbytes => exact accounts_issued hdb hfresh ⟨hsessions, hbytes⟩
  | claimed secrets row host_id key token hid hrow hunused hfresh =>
    exact accounts_claimed hdb secrets key hrow hunused hfresh
  | settled p f hp hf => exact accounts_settled hdb hp hf
  | host_revoked host_id => exact accounts_host_revoked hdb host_id
  | reserved hservice host session_id hhost hactive hfresh hroom =>
    exact accounts_reserved hdb hhost hactive hfresh hroom
  | released hservice host session hhost hactive hsession hof hopen =>
    exact accounts_released hdb hhost hactive hsession hof hopen
  | reconciled hservice => exact accounts_reconciled hdb

/-- What a run does not take back. -/
structure AdmissionKept (db db' : AdmissionDatabase) : Prop where
  invitations : ∀ i ∈ db.invitations, i.state ≠ .unused →
    ∃ i' ∈ db'.invitations, i'.invite_id = i.invite_id ∧ i'.state = i.state
  hosts : ∀ h ∈ db.hosts, ∃ h' ∈ db'.hosts, h'.host_id = h.host_id ∧
    h'.invitation_id = h.invitation_id ∧ (h.state = .revoked → h'.state = .revoked)
  /-- A session id stays with its session, which is not active again once released. -/
  sessions : ∀ x ∈ db.sessions, ∃ x' ∈ db'.sessions, x'.session_id = x.session_id ∧
    x'.host_id = x.host_id ∧ (x.state = .released → x'.state = .released)

theorem kept_refl (db : AdmissionDatabase) : AdmissionKept db db :=
  ⟨fun i hi _ => ⟨i, hi, rfl, rfl⟩, fun h hh => ⟨h, hh, rfl, rfl, id⟩,
    fun x hx => ⟨x, hx, rfl, rfl, id⟩⟩

theorem kept_trans {db'' : AdmissionDatabase} (h : AdmissionKept db db')
    (h' : AdmissionKept db' db'') : AdmissionKept db db'' := by
  refine ⟨?_, ?_, ?_⟩
  · intro i hi hused
    obtain ⟨i', hi', hid, hstate⟩ := h.invitations i hi hused
    obtain ⟨i'', hi'', hid', hstate'⟩ := h'.invitations i' hi' (by rw [hstate]; exact hused)
    exact ⟨i'', hi'', hid'.trans hid, hstate'.trans hstate⟩
  · intro x hx
    obtain ⟨x', hx', hid, hinvitation, hstate⟩ := h.hosts x hx
    obtain ⟨x'', hx'', hid', hinvitation', hstate'⟩ := h'.hosts x' hx'
    exact ⟨x'', hx'', hid'.trans hid, hinvitation'.trans hinvitation,
      fun hrevoked => hstate' (hstate hrevoked)⟩
  · intro x hx
    obtain ⟨x', hx', hid, hof, hstate⟩ := h.sessions x hx
    obtain ⟨x'', hx'', hid', hof', hstate'⟩ := h'.sessions x' hx'
    exact ⟨x'', hx'', hid'.trans hid, hof'.trans hof, fun hreleased => hstate' (hstate hreleased)⟩

section Kept

variable {pi : RelayInvitation → Bool} {fi : RelayInvitation → RelayInvitation}
  {ph : RelayHost → Bool} {fh : RelayHost → RelayHost} {ps : RelayHostSession → Bool}
  {fs : RelayHostSession → RelayHostSession}

theorem invitations_kept (hp : ∀ x, pi x = true → x.state = .unused)
    (i : RelayInvitation) (hi : i ∈ db.invitations) (hused : i.state ≠ .unused) :
    ∃ i' ∈ Table.update pi fi db.invitations, i'.invite_id = i.invite_id ∧ i'.state = i.state :=
  ⟨i, Table.mem_update.mpr ⟨i, hi, if_neg fun h => hused (hp i h)⟩, rfl, rfl⟩

theorem hosts_kept (hf : ∀ x, (fh x).host_id = x.host_id ∧
    (fh x).invitation_id = x.invitation_id ∧ (x.state = .revoked → (fh x).state = .revoked))
    (h : RelayHost) (hh : h ∈ db.hosts) :
    ∃ h' ∈ Table.update ph fh db.hosts, h'.host_id = h.host_id ∧
      h'.invitation_id = h.invitation_id ∧ (h.state = .revoked → h'.state = .revoked) := by
  refine ⟨_, Table.mem_update.mpr ⟨h, hh, rfl⟩, ?_⟩
  split
  · exact hf h
  · exact ⟨rfl, rfl, id⟩

theorem sessions_kept (hf : ∀ x, (fs x).session_id = x.session_id ∧
    (fs x).host_id = x.host_id ∧ (fs x).state = .released)
    (x : RelayHostSession) (hx : x ∈ db.sessions) :
    ∃ x' ∈ Table.update ps fs db.sessions, x'.session_id = x.session_id ∧
      x'.host_id = x.host_id ∧ (x.state = .released → x'.state = .released) := by
  refine ⟨_, Table.mem_update.mpr ⟨x, hx, rfl⟩, ?_⟩
  split
  · exact ⟨(hf x).1, (hf x).2.1, fun _ => (hf x).2.2⟩
  · exact ⟨rfl, rfl, id⟩

end Kept

theorem kept_change (h : AdmissionChange service now db db') : AdmissionKept db db' := by
  have hsame := kept_refl db
  cases h with
  | same => exact hsame
  | issued row hfresh hunused hsessions hbytes =>
    exact { hsame with
      invitations := fun i hi _ => ⟨i, List.mem_append_left _ hi, rfl, rfl⟩ }
  | claimed secrets row host_id key token hid hrow hunused hfresh =>
    refine { hsame with invitations := invitations_kept fun x hx => ?_, hosts := ?_ }
    · simp only [Bool.and_eq_true, decide_eq_true_eq] at hx
      exact hx.2
    · intro x hx
      exact ⟨x, List.mem_append_left _ hx, rfl, rfl, id⟩
  | settled p f hp hf => exact { hsame with invitations := invitations_kept hp }
  | host_revoked host_id =>
    exact { hsame with
      hosts := hosts_kept fun x => ⟨rfl, rfl, fun _ => rfl⟩
      sessions := sessions_kept fun x => ⟨rfl, rfl, rfl⟩ }
  | reserved hservice host session_id hhost hactive hfresh hroom =>
    exact { hsame with
      hosts := hosts_kept fun x => ⟨rfl, rfl, id⟩
      sessions := fun x hx => ⟨x, List.mem_append_left _ hx, rfl, rfl, id⟩ }
  | released hservice host session hhost hactive hsession hof hopen | reconciled hservice =>
    exact { hsame with
      hosts := hosts_kept fun x => ⟨rfl, rfl, id⟩
      sessions := sessions_kept fun x => ⟨rfl, rfl, rfl⟩ }

theorem kept_recorded (p : RelayHost → Bool) (used window : ℤ) :
    AdmissionKept db { db with
      hosts := Table.update p (fun row => { row with
        bytes_used := used, bytes_window_started_at := window, updated_at := now }) db.hosts } :=
  { kept_refl db with hosts := hosts_kept fun _ => ⟨rfl, rfl, id⟩ }

def bytesIn (accepted : List AcceptedBytes) (host_id : Text) (window : ℤ) : ℤ :=
  ((accepted.filter fun a => a.host_id = host_id && a.window_started_at = window).map
    fun a => a.byte_count).sum

def bytesSince (accepted : List AcceptedBytes) (host_id : Text) (t : ℤ) : ℤ :=
  ((accepted.filter fun a => a.host_id = host_id && t ≤ a.at_seconds).map
    fun a => a.byte_count).sum

/-- A change leaves the bytes of a host and its window alone, and a new host has none. -/
structure BytesKept (db db' : AdmissionDatabase) : Prop where
  old : ∀ h' ∈ db'.hosts, (∃ h ∈ db.hosts, h'.host_id = h.host_id ∧
    h'.bytes_used = h.bytes_used ∧ h'.bytes_window_started_at = h.bytes_window_started_at) ∨
    h'.host_id ∉ (db.hosts.map fun h => h.host_id) ∧ h'.bytes_used = 0
  stays : ∀ h ∈ db.hosts, ∃ h' ∈ db'.hosts, h'.host_id = h.host_id ∧
    h'.bytes_window_started_at = h.bytes_window_started_at

theorem bytes_update {p : RelayHost → Bool} {f : RelayHost → RelayHost}
    {sessions : List RelayHostSession} (hf : ∀ x, (f x).host_id = x.host_id ∧
      (f x).bytes_used = x.bytes_used ∧
      (f x).bytes_window_started_at = x.bytes_window_started_at) :
    BytesKept db { db with hosts := Table.update p f db.hosts, sessions := sessions } := by
  refine ⟨?_, ?_⟩
  · intro h' hh'
    obtain ⟨h, hh, rfl⟩ := Table.mem_update.mp hh'
    refine .inl ⟨h, hh, ?_⟩
    split
    · exact hf h
    · exact ⟨rfl, rfl, rfl⟩
  · intro h hh
    refine ⟨_, Table.mem_update.mpr ⟨h, hh, rfl⟩, ?_⟩
    split
    · exact ⟨(hf h).1, (hf h).2.2⟩
    · exact ⟨rfl, rfl⟩

theorem bytes_same {invitations : List RelayInvitation} :
    BytesKept db { db with invitations := invitations } :=
  ⟨fun h hh => .inl ⟨h, hh, rfl, rfl, rfl⟩, fun h hh => ⟨h, hh, rfl, rfl⟩⟩

theorem bytes_change (h : AdmissionChange service now db db') : BytesKept db db' := by
  cases h with
  | same | issued row hfresh hunused hsessions hbytes | settled p f hp hf => exact bytes_same
  | claimed secrets row host_id key token hid hrow hunused hfresh =>
    refine ⟨?_, fun h hh => ⟨h, List.mem_append_left _ hh, rfl, rfl⟩⟩
    exact Table.forall_append (fun h hh => .inl ⟨h, hh, rfl, rfl, rfl⟩) (.inr ⟨hfresh, rfl⟩)
  | host_revoked host_id | reconciled hservice => exact bytes_update fun x => ⟨rfl, rfl, rfl⟩
  | reserved hservice host session_id hhost hactive hfresh hroom =>
    exact bytes_update fun x => ⟨rfl, rfl, rfl⟩
  | released hservice host session hhost hactive hsession hof hopen =>
    exact bytes_update fun x => ⟨rfl, rfl, rfl⟩

variable {l : AdmissionLedger}

structure Windows (l : AdmissionLedger) : Prop where
  accounts : Accounts l.db
  entries : ∀ a ∈ l.accepted, ∃ h ∈ l.db.hosts, h.host_id = a.host_id ∧
    (a.window_started_at = h.bytes_window_started_at ∨
      a.window_started_at + quota_window_seconds ≤ h.bytes_window_started_at) ∧
    (a.at_seconds : ℤ) < a.window_started_at + quota_window_seconds
  totals : ∀ h ∈ l.db.hosts, h.bytes_used = bytesIn l.accepted h.host_id h.bytes_window_started_at

theorem windows_empty : Windows .empty := by
  refine ⟨accounts_empty, ?_, ?_⟩ <;> simp [AdmissionLedger.empty, AdmissionDatabase.empty]

theorem bytesIn_unknown (hl : Windows l)
    (h : host_id ∉ l.db.hosts.map fun x => x.host_id) (window : ℤ) :
    bytesIn l.accepted host_id window = 0 := by
  have hnone : (l.accepted.filter fun a =>
      a.host_id = host_id && a.window_started_at = window) = [] := by
    rw [List.filter_eq_nil_iff]
    intro a ha hchosen
    simp only [Bool.and_eq_true, decide_eq_true_eq] at hchosen
    obtain ⟨host, hhost, hid, _⟩ := hl.entries a ha
    exact h (List.mem_map.mpr ⟨host, hhost, hid.trans hchosen.1⟩)
  unfold bytesIn
  rw [hnone]
  rfl

theorem windows_change (hl : Windows l) (h : AdmissionChange service now l.db db') :
    Windows { l with db := db' } := by
  have hbytes := bytes_change h
  refine ⟨accounts_change hl.accounts h, ?_, ?_⟩
  · intro a ha
    obtain ⟨host, hhost, hid, hwindow, hat⟩ := hl.entries a ha
    obtain ⟨host', hhost', hid', hwindow'⟩ := hbytes.stays host hhost
    exact ⟨host', hhost', hid'.trans hid, by rw [hwindow']; exact hwindow, hat⟩
  · intro host' hhost'
    rcases hbytes.old host' hhost' with ⟨host, hhost, hid, hused, hwindow⟩ | ⟨hnew, hnone⟩
    · rw [hid, hused, hwindow]
      exact hl.totals host hhost
    · rw [hnone]
      exact (bytesIn_unknown hl hnew _).symm

theorem byte_window_cases (now : Seconds) {host : RelayHost}
    (hwindow : 0 < host.bytes_window_started_at) :
    (byte_window now host = (host.bytes_window_started_at, host.bytes_used) ∧
        (now : ℤ) < host.bytes_window_started_at + quota_window_seconds) ∨
      (byte_window now host = ((now : ℤ), 0) ∧
        host.bytes_window_started_at + quota_window_seconds ≤ now) := by
  unfold byte_window
  split
  · rename_i h
    rcases h with h | h
    · omega
    · exact .inr ⟨rfl, by omega⟩
  · rename_i h
    rw [not_or] at h
    exact .inl ⟨rfl, by omega⟩

theorem accept_cases (hl : Windows l) (now : Seconds) (host_id : Text) (byte_count : ℤ) :
    l.accept now host_id byte_count = l ∨
    ∃ host ∈ l.db.hosts, host.state = .active ∧ 0 ≤ byte_count ∧
      (byte_window now host).2 + byte_count ≤ host.quota.max_bytes_per_day ∧
      l.accept now host_id byte_count = {
        db := recorded l.db now host byte_count
        accepted := l.accepted ++ [{
          host_id := host.host_id
          at_seconds := now
          byte_count := byte_count
          window_started_at := (byte_window now host).1 }] } := by
  cases hrecord : l.db.record_host_bytes now host_id byte_count with
  | error e =>
    left
    unfold AdmissionLedger.accept
    rw [hrecord]
  | ok outcome =>
    right
    obtain ⟨_, db'⟩ := outcome
    obtain ⟨host, hhost, hid, hactive, hcount, hroom, rfl⟩ := record_ok hrecord
    refine ⟨host, hhost, hactive, hcount, hroom, ?_⟩
    have haccounts := accounts_recorded now hl.accounts hhost hcount hroom
    have hmem : ({ host with
        bytes_used := (byte_window now host).2 + byte_count
        bytes_window_started_at := (byte_window now host).1, updated_at := (now : ℤ) } : RelayHost) ∈
        Table.update (fun row => row.host_id = host.host_id && row.state = .active)
          (fun row => { row with
            bytes_used := (byte_window now host).2 + byte_count
            bytes_window_started_at := (byte_window now host).1, updated_at := (now : ℤ) })
          l.db.hosts :=
      Table.mem_update.mpr ⟨host, hhost, by simp [hactive]⟩
    have hselect := Table.select_of_mem haccounts.host_ids hmem
    unfold AdmissionLedger.accept
    rw [hrecord]
    dsimp only
    rw [← hid, AdmissionDatabase.host, hselect]

theorem bytesIn_append (accepted : List AcceptedBytes) (a : AcceptedBytes) (host_id : Text)
    (window : ℤ) : bytesIn (accepted ++ [a]) host_id window = bytesIn accepted host_id window +
      (if a.host_id = host_id && a.window_started_at = window then a.byte_count else 0) := by
  unfold bytesIn
  rw [List.filter_append, List.map_append, List.sum_append]
  congr 1
  rw [List.filter_singleton]
  cases (decide (a.host_id = host_id) && decide (a.window_started_at = window)) with
  | false => rfl
  | true => exact add_zero _

variable {t : ℤ}

theorem bytesIn_fresh (hl : Windows l) {host : RelayHost} (hhost : host ∈ l.db.hosts)
    (hover : host.bytes_window_started_at + quota_window_seconds ≤ t) :
    bytesIn l.accepted host.host_id t = 0 := by
  have hnone : (l.accepted.filter fun a =>
      a.host_id = host.host_id && a.window_started_at = t) = [] := by
    rw [List.filter_eq_nil_iff]
    intro a ha hchosen
    simp only [Bool.and_eq_true, decide_eq_true_eq] at hchosen
    obtain ⟨other, hother, hid, hwindow, _⟩ := hl.entries a ha
    have hsame := Table.eq_of_key hl.accounts.host_ids hother hhost (hid.trans hchosen.1)
    subst hsame
    unfold quota_window_seconds at hover hwindow
    omega
  unfold bytesIn
  rw [hnone]
  rfl

theorem windows_accept (hl : Windows l) (now : Seconds) (host_id : Text) (byte_count : ℤ) :
    Windows (l.accept now host_id byte_count) := by
  rcases accept_cases hl now host_id byte_count with h | ⟨host, hhost, hactive, hcount, hroom, h⟩
  · rw [h]
    exact hl
  · rw [h]
    have hok := hl.accounts.hosts host hhost
    have hcases := byte_window_cases now hok.window
    refine ⟨accounts_recorded now hl.accounts hhost hcount hroom, ?_, ?_⟩
    · refine Table.forall_append ?_ ?_
      · intro a ha
        obtain ⟨other, hother, hid, hwindow, hat⟩ := hl.entries a ha
        refine ⟨_, Table.mem_update.mpr ⟨other, hother, rfl⟩, ?_⟩
        split
        · rename_i hchosen
          have hsame := chosen_host hl.accounts hhost hother hchosen
          subst hsame
          refine ⟨hid, ?_, hat⟩
          rcases hcases with ⟨hsame, _⟩ | ⟨hnew, hover⟩
          · rw [hsame]
            exact hwindow
          · rw [hnew]
            right
            unfold quota_window_seconds at hwindow hover ⊢
            show a.window_started_at + 24 * 60 * 60 ≤ (now : ℤ)
            omega
        · exact ⟨hid, hwindow, hat⟩
      · refine ⟨_, Table.mem_update.mpr ⟨host, hhost, rfl⟩, ?_⟩
        rw [if_pos (by simp [hactive])]
        refine ⟨rfl, .inl rfl, ?_⟩
        rcases hcases with ⟨hsame, hwithin⟩ | ⟨hnew, _⟩
        · rw [hsame]
          exact hwithin
        · rw [hnew]
          unfold quota_window_seconds
          show (now : ℤ) < (now : ℤ) + 24 * 60 * 60
          omega
    · intro row hrow
      obtain ⟨old, hold, rfl⟩ := Table.mem_update.mp hrow
      rw [bytesIn_append]
      split
      · rename_i hchosen
        have hsame := chosen_host hl.accounts hhost hold hchosen
        subst hsame
        show (byte_window now old).2 + byte_count =
          bytesIn l.accepted old.host_id (byte_window now old).1 + _
        rw [if_pos (by simp)]
        congr 1
        rcases hcases with ⟨hsame, _⟩ | ⟨hnew, hover⟩
        · rw [hsame]
          exact hl.totals old hold
        · rw [hnew]
          exact (bytesIn_fresh hl hold hover).symm
      · rename_i hnot
        have hother : host.host_id ≠ old.host_id := by
          intro hid
          have hsame := Table.eq_of_key hl.accounts.host_ids hold hhost hid.symm
          subst hsame
          simp [hactive] at hnot
        rw [if_neg (by simp [hother]), add_zero]
        exact hl.totals old hold

theorem step_cases (secrets : AdmissionSecrets) (l : AdmissionLedger)
    (call : Seconds × AdmissionCall) :
    (∃ db', Relation.ReflTransGen (AdmissionChange True call.1) l.db db' ∧
      l.step secrets call = { l with db := db' }) ∨
    ∃ host_id byte_count, l.step secrets call = l.accept call.1 host_id byte_count := by
  obtain ⟨now, call⟩ := call
  have hcommit : ∀ {α : Type} (outcome : Except RelayAdmissionError (α × AdmissionDatabase)),
      (∀ a db', outcome = .ok (a, db') → AdmissionChange True now l.db db') →
      ∃ db', Relation.ReflTransGen (AdmissionChange True now) l.db db' ∧
        l.commit outcome = { l with db := db' } := by
    intro α outcome h
    cases houtcome : outcome with
    | error e => exact ⟨l.db, .refl, rfl⟩
    | ok result => exact ⟨result.2, .single (h result.1 result.2 houtcome), rfl⟩
  cases call with
  | issue_invitation ttl max_sessions max_bytes token secret =>
    exact .inl (hcommit _ fun a db' h => issue_change h)
  | claim_invitation invitation key token => exact .inl (hcommit _ fun a db' h => claim_change h)
  | revoke_invitation invite_id =>
    exact .inl (hcommit _ fun a db' h => revoke_invitation_change h)
  | expire_due_invitations =>
    refine .inl ⟨_, ?_, rfl⟩
    dsimp only
    generalize (l.db.due_invitations now).map (fun row => row.invite_id) = ids
    generalize l.db = db
    induction ids generalizing db with
    | nil => exact .refl
    | cons invite_id ids ih => exact .head (expire_change db invite_id) (ih _)
  | revoke_host host_id => exact .inl (hcommit _ fun a db' h => revoke_host_change h)
  | reserve_host_session host_id session_id =>
    exact .inl (hcommit _ fun a db' h => reserve_change h)
  | release_host_session host_id session_id =>
    exact .inl (hcommit _ fun a db' h => release_change h)
  | reconcile_active_sessions =>
    exact .inl ⟨_, .single (reconcile_change l.db), rfl⟩
  | record_host_bytes host_id byte_count => exact .inr ⟨host_id, byte_count, rfl⟩

theorem windows_changes (hl : Windows l)
    (h : Relation.ReflTransGen (AdmissionChange service now) l.db db') :
    Windows { l with db := db' } ∧ AdmissionKept l.db db' := by
  induction h with
  | refl => exact ⟨hl, kept_refl _⟩
  | @tail db _ _ hchange ih =>
    exact ⟨windows_change (l := { l with db := db }) ih.1 hchange,
      kept_trans ih.2 (kept_change hchange)⟩

theorem windows_step (secrets : AdmissionSecrets) (hl : Windows l)
    (call : Seconds × AdmissionCall) :
    Windows (l.step secrets call) ∧ AdmissionKept l.db (l.step secrets call).db := by
  rcases step_cases secrets l call with ⟨db', hchanges, h⟩ | ⟨host_id, byte_count, h⟩
  · rw [h]
    exact windows_changes hl hchanges
  · rw [h]
    refine ⟨windows_accept hl call.1 host_id byte_count, ?_⟩
    rcases accept_cases hl call.1 host_id byte_count with h | ⟨host, _, _, _, _, h⟩
    · rw [h]
      exact kept_refl _
    · rw [h]
      exact kept_recorded _ _ _

theorem windows_run (secrets : AdmissionSecrets) (hl : Windows l)
    (calls : List (Seconds × AdmissionCall)) :
    Windows (l.run secrets calls) ∧ AdmissionKept l.db (l.run secrets calls).db := by
  induction calls generalizing l with
  | nil => exact ⟨hl, kept_refl _⟩
  | cons call calls ih =>
    obtain ⟨hstep, hkept⟩ := windows_step secrets hl call
    obtain ⟨hrun, hkept'⟩ := ih hstep
    exact ⟨hrun, kept_trans hkept hkept'⟩

/-- Every window started by `t`, and bytes are put in a window that has started. -/
structure Timely (t : ℤ) (l : AdmissionLedger) : Prop where
  hosts : ∀ h ∈ l.db.hosts, h.bytes_window_started_at ≤ t
  entries : ∀ a ∈ l.accepted, a.window_started_at ≤ a.at_seconds

theorem timely_mono {t' : ℤ} (h : t ≤ t') (ht : Timely t l) : Timely t' l :=
  ⟨fun x hx => (ht.hosts x hx).trans h, ht.entries⟩

theorem timely_change (ht : Timely now l) (h : AdmissionChange service now l.db db') :
    Timely now { l with db := db' } := by
  refine ⟨?_, ht.entries⟩
  cases h with
  | same | issued row hfresh hunused hsessions hbytes | settled p f hp hf => exact ht.hosts
  | claimed secrets row host_id key token hid hrow hunused hfresh =>
    exact Table.forall_append ht.hosts (le_refl _)
  | host_revoked host_id => exact Table.forall_update ht.hosts fun x hx _ => ht.hosts x hx
  | reserved hservice host session_id hhost hactive hfresh hroom =>
    exact Table.forall_update ht.hosts fun x hx _ => ht.hosts x hx
  | released hservice host session hhost hactive hsession hof hopen =>
    exact Table.forall_update ht.hosts fun x hx _ => ht.hosts x hx
  | reconciled hservice => exact Table.forall_update ht.hosts fun x hx _ => ht.hosts x hx

theorem timely_step (secrets : AdmissionSecrets) (hl : Windows l) (ht : Timely t l)
    (call : Seconds × AdmissionCall) (hlater : t ≤ call.1) : Timely call.1 (l.step secrets call) := by
  have hnow := timely_mono hlater ht
  rcases step_cases secrets l call with ⟨db', hchanges, h⟩ | ⟨host_id, byte_count, h⟩
  · rw [h]
    clear h
    induction hchanges with
    | refl => exact hnow
    | @tail db _ _ hchange ih => exact timely_change (l := { l with db := db }) ih hchange
  · rw [h]
    rcases accept_cases hl call.1 host_id byte_count with h | ⟨host, hhost, _, _, _, h⟩
    · rw [h]
      exact hnow
    · rw [h]
      have hwindow : (byte_window call.1 host).1 ≤ call.1 := by
        rcases byte_window_cases call.1 (hl.accounts.hosts host hhost).window with
          ⟨hsame, _⟩ | ⟨hnew, _⟩
        · rw [hsame]
          exact hnow.hosts host hhost
        · rw [hnew]
      exact ⟨Table.forall_update hnow.hosts fun x _ _ => hwindow,
        Table.forall_append hnow.entries hwindow⟩

theorem timely_run (secrets : AdmissionSecrets) (hl : Windows l) (ht : Timely t l)
    (calls : List (Seconds × AdmissionCall))
    (hsorted : (t :: calls.map fun call => (call.1 : ℤ)).Pairwise (· ≤ ·)) :
    ∃ t', Timely t' (l.run secrets calls) := by
  induction calls generalizing l t with
  | nil => exact ⟨t, ht⟩
  | cons call calls ih =>
    rw [List.map_cons, List.pairwise_cons] at hsorted
    have hlater : t ≤ call.1 := hsorted.1 _ List.mem_cons_self
    exact ih (windows_step secrets hl call).1 (timely_step secrets hl ht call hlater) hsorted.2

theorem bytesSince_eq (hl : Windows l) (ht : Timely t l) {host : RelayHost}
    (hhost : host ∈ l.db.hosts) :
    bytesSince l.accepted host.host_id host.bytes_window_started_at =
      bytesIn l.accepted host.host_id host.bytes_window_started_at := by
  unfold bytesSince bytesIn
  congr 2
  refine List.filter_congr fun a ha => ?_
  by_cases hid : a.host_id = host.host_id
  · obtain ⟨other, hother, hoid, hwindow, hat⟩ := hl.entries a ha
    have hsame := Table.eq_of_key hl.accounts.host_ids hother hhost (hoid.trans hid)
    subst hsame
    have hstart := ht.entries a ha
    have hiff : other.bytes_window_started_at ≤ (a.at_seconds : ℤ) ↔
        a.window_started_at = other.bytes_window_started_at := by
      constructor
      · intro hsince
        rcases hwindow with h | h
        · exact h
        · exact absurd (lt_of_lt_of_le hat h) (not_lt.mpr hsince)
      · intro h
        rw [← h]
        exact hstart
    simp only [hid, decide_true, Bool.true_and, decide_eq_decide]
    exact hiff
  · simp [hid]

structure HostHolds (l : AdmissionLedger) (host : RelayHost) : Prop where
  sessions : host.active_sessions =
    (l.db.sessions.countP fun x => x.host_id = host.host_id && x.state = .active : ℕ)
  sessions_le : host.active_sessions ≤ host.quota.max_sessions
  revoked : host.state = .revoked →
    ∀ x ∈ l.db.sessions, x.host_id = host.host_id → x.state = .released
  bytes : host.bytes_used = bytesIn l.accepted host.host_id host.bytes_window_started_at
  bytes_le : host.bytes_used ≤ host.quota.max_bytes_per_day

theorem host_holds (hl : Windows l) {host : RelayHost} (hhost : host ∈ l.db.hosts) :
    HostHolds l host := by
  have hok := hl.accounts.hosts host hhost
  refine ⟨hok.counted, hok.bounded, ?_, hl.totals host hhost, hok.bytes.2⟩
  intro hrevoked x hx hof
  have hnone : l.db.sessions.countP (activeOf host.host_id) = 0 := by
    have hcounted := hok.counted
    rw [hok.idle hrevoked] at hcounted
    exact_mod_cast hcounted.symm
  rw [List.countP_eq_zero] at hnone
  have hidle := hnone x hx
  cases hstate : x.state with
  | active => simp [activeOf, hof, hstate] at hidle
  | released => rfl

/-- **Admission accounts.** After any calls, of every host: its counter of sessions is the
number of its active rows and within its quota; revoked, it has no active session; the
bytes it used are those accepted since its window started, and within its quota; no other
host came from its invitation.  Whatever follows, a state of an invitation other than
unused is not left, a revoked host stays revoked, and a session id keeps its one row,
which is not active again once released.
SOURCE: lib/mobile_gateway/relay_admission.py:205-517 -/
theorem admission_accounts (secrets : AdmissionSecrets)
    (calls more : List (Seconds × AdmissionCall)) :
    let l := AdmissionLedger.empty.run secrets calls
    (∀ host ∈ l.db.hosts, HostHolds l host ∧
      ((calls.map fun call => (call.1 : ℤ)).Pairwise (· ≤ ·) →
        host.bytes_used = bytesSince l.accepted host.host_id host.bytes_window_started_at)) ∧
    (l.db.hosts.map fun host => host.invitation_id).Nodup ∧
    (l.db.sessions.map fun x => x.session_id).Nodup ∧
    (l.db.invitations.map fun i => i.invite_id).Nodup ∧
    AdmissionKept l.db (l.run secrets more).db := by
  intro l
  have hl : Windows l := (windows_run secrets windows_empty calls).1
  refine ⟨fun host hhost => ⟨host_holds hl hhost, fun hsorted => ?_⟩, hl.accounts.one_host,
    hl.accounts.session_ids, hl.accounts.invite_ids, (windows_run secrets hl more).2⟩
  obtain ⟨t, ht⟩ : ∃ t, Timely t l := by
    have hstart : Timely 0 .empty := by
      refine ⟨?_, ?_⟩ <;> simp [AdmissionLedger.empty, AdmissionDatabase.empty]
    refine timely_run secrets windows_empty hstart calls (List.pairwise_cons.mpr ⟨?_, hsorted⟩)
    intro t ht
    obtain ⟨call, _, rfl⟩ := List.mem_map.mp ht
    exact call.1.2.le
  rw [bytesSince_eq hl ht hhost]
  exact (host_holds hl hhost).bytes

end ClaudeCodeBridge.Analysis.Relay
