import ClaudeCodeBridge.Model.RelayReservations
import ClaudeCodeBridge.Analysis.AdmissionAccounting

/-!
# Reservations match sessions

A session is reserved in the admission database before it is in the service, and its row
is released when the service lets it go, at any of several points and by whichever
handler.  The invariant says who holds the active rows: the sessions of the service, and
the handlers between their reservation and their commit.

The ladder: what other calls of the admission store leave alone (`RowsKept`); the release
of a row (`released_rows`); the invariant (`Reserved`), kept where its parts do not change,
by calls of an operator, by an abort, a reservation, a commit, a close and a restart; the
steps (`reserved_step`); the result (`reservations_match_sessions`).
-/

set_option autoImplicit false

namespace ClaudeCodeBridge.Analysis.Relay

open Program
open Model.Relay
open Model.Relay.AdmissionDatabase
open Model.Relay.ReservationService

variable {policy : RendezvousPolicy} {secrets : AdmissionSecrets} {service : Prop} {now : Seconds}
  {db db' : AdmissionDatabase}

theorem isSpace_of_isUrlSafe {c : Fin 0x110000} (h : isUrlSafe c = true) : isSpace c = false := by
  simp only [isUrlSafe, Bool.or_eq_true, Bool.and_eq_true, decide_eq_true_eq] at h
  simp only [isSpace, Bool.or_eq_false_iff, Bool.and_eq_false_iff, decide_eq_false_iff_not]
  omega

/-- A text that `_required_text` leaves as it is. -/
def Named (text : Text) : Prop := strip text = text ∧ text ≠ []

theorem named_host_id (token : UrlSafeToken) : Named (host_id_of token) := by
  refine ⟨strip_eq_self fun c hc => ?_, ?_⟩
  · have hstart : (asciiText "rhost_").all (fun c => ! isSpace c) = true := by decide
    rcases List.mem_append.mp hc with hc | hc
    · simpa using List.all_eq_true.mp hstart c hc
    · exact isSpace_of_isUrlSafe (List.all_eq_true.mp token.2 c hc)
  · intro hnil
    have hstart : asciiText "rhost_" = [] := (List.append_eq_nil_iff.mp hnil).1
    exact absurd hstart (by decide)

theorem admission_text_ok {value text : Text} {name : String}
    (h : admission_text value name = .ok text) : text = strip value ∧ text ≠ [] := by
  unfold admission_text at h
  dsimp only at h
  split at h
  · simp at h
  · rename_i hne
    have hsame := Except.ok.inj h
    exact ⟨hsame.symm, by rw [← hsame]; exact hne⟩

theorem admission_text_named {value : Text} {name : String} (h : Named value) :
    admission_text value name = .ok value := by
  unfold admission_text
  dsimp only
  rw [h.1, if_neg h.2]

def HostActive (db : AdmissionDatabase) (host_id : Text) : Prop :=
  ∃ x ∈ db.hosts, x.host_id = host_id ∧ x.state = .active

def HostKnown (db : AdmissionDatabase) (host_id : Text) : Prop :=
  host_id ∈ db.hosts.map fun x => x.host_id

/-- Every host's id is a text that is left as it is. -/
def HostsNamed (db : AdmissionDatabase) : Prop := ∀ x ∈ db.hosts, Named x.host_id

/-- No host is lost, and none is active again. -/
structure HostsKept (db db' : AdmissionDatabase) : Prop where
  known : ∀ h, HostKnown db h → HostKnown db' h
  active : ∀ h, HostKnown db h → HostActive db' h → HostActive db h
  named : HostsNamed db → HostsNamed db'

/-- The rows of sessions, but for some, stay active as long as their host does, and no row
becomes active. -/
structure RowsKept (ex : Text → Prop) (db db' : AdmissionDatabase) : Prop where
  hosts : HostsKept db db'
  back : ∀ x' ∈ db'.sessions, ∃ x ∈ db.sessions, x.session_id = x'.session_id ∧
    x.host_id = x'.host_id ∧ (x'.state = .active → x.state = .active)
  forth : ∀ x ∈ db.sessions, ∃ x' ∈ db'.sessions, x'.session_id = x.session_id ∧
    x'.host_id = x.host_id ∧
      (¬ ex x.session_id → x.state = .active → HostActive db' x.host_id → x'.state = .active)

theorem hostsKept_refl (db : AdmissionDatabase) : HostsKept db db :=
  ⟨fun _ h => h, fun _ _ h => h, id⟩

theorem rowsKept_refl (ex : Text → Prop) (db : AdmissionDatabase) : RowsKept ex db db :=
  ⟨hostsKept_refl db, fun x hx => ⟨x, hx, rfl, rfl, id⟩,
    fun x hx => ⟨x, hx, rfl, rfl, fun _ h _ => h⟩⟩

theorem rowsKept_trans {ex : Text → Prop} {db'' : AdmissionDatabase} (h : RowsKept ex db db')
    (hhost : ∀ x ∈ db.sessions, HostKnown db x.host_id) (h' : RowsKept ex db' db'') :
    RowsKept ex db db'' := by
  refine ⟨⟨fun x hx => h'.hosts.known x (h.hosts.known x hx),
    fun x hx hactive => h.hosts.active x hx (h'.hosts.active x (h.hosts.known x hx) hactive),
    fun hnamed => h'.hosts.named (h.hosts.named hnamed)⟩, ?_, ?_⟩
  · intro x'' hx''
    obtain ⟨x', hx', hid', hof', hactive'⟩ := h'.back x'' hx''
    obtain ⟨x, hx, hid, hof, hactive⟩ := h.back x' hx'
    exact ⟨x, hx, hid.trans hid', hof.trans hof', fun hstate => hactive (hactive' hstate)⟩
  · intro x hx
    obtain ⟨x', hx', hid, hof, hactive⟩ := h.forth x hx
    obtain ⟨x'', hx'', hid', hof', hactive'⟩ := h'.forth x' hx'
    refine ⟨x'', hx'', hid'.trans hid, hof'.trans hof, fun hnot hstate hhostactive => ?_⟩
    have hknown := h.hosts.known _ (hhost x hx)
    rw [← hof] at hknown hhostactive
    have hmiddle := h'.hosts.active _ hknown hhostactive
    refine hactive' (by rw [hid]; exact hnot) (hactive hnot hstate ?_) hhostactive
    rw [← hof]
    exact hmiddle

theorem hostsKept_update {p : RelayHost → Bool} {f : RelayHost → RelayHost}
    (sessions : List RelayHostSession) (hid : ∀ x, (f x).host_id = x.host_id)
    (hstate : ∀ x, (f x).state = .active → x.state = .active) :
    HostsKept db { db with hosts := Table.update p f db.hosts, sessions := sessions } := by
  refine ⟨?_, ?_, ?_⟩
  · intro h hknown
    unfold HostKnown
    rw [Table.map_update hid]
    exact hknown
  · rintro h _ ⟨x, hx, hxid, hactive⟩
    obtain ⟨old, hold, rfl⟩ := Table.mem_update.mp hx
    split at hxid
    · rename_i hp
      rw [if_pos hp] at hactive
      exact ⟨old, hold, (hid old).symm.trans hxid, hstate old hactive⟩
    · rename_i hp
      rw [if_neg hp] at hactive
      exact ⟨old, hold, hxid, hactive⟩
  · intro hnamed
    refine Table.forall_update hnamed fun x hx _ => ?_
    rw [hid x]
    exact hnamed x hx

theorem released_update {ex : Text → Prop} {p : RelayHostSession → Bool} {t : Option ℤ}
    {invitations : List RelayInvitation} {hosts : List RelayHost}
    (hhosts : HostsKept db ⟨invitations, hosts, db.sessions⟩)
    (hp : ∀ x ∈ db.sessions, p x = true →
      ex x.session_id ∨ ¬ HostActive ⟨invitations, hosts, db.sessions⟩ x.host_id) :
    RowsKept ex db ⟨invitations, hosts, Table.update p
      (fun row => { row with state := .released, released_at := t }) db.sessions⟩ := by
  refine ⟨⟨hhosts.known, hhosts.active, hhosts.named⟩, ?_, ?_⟩
  · intro x' hx'
    obtain ⟨x, hx, rfl⟩ := Table.mem_update.mp hx'
    refine ⟨x, hx, ?_⟩
    split
    · exact ⟨rfl, rfl, fun h => by simp at h⟩
    · exact ⟨rfl, rfl, id⟩
  · intro x hx
    refine ⟨_, Table.mem_update.mpr ⟨x, hx, rfl⟩, ?_⟩
    split
    · rename_i hchosen
      refine ⟨rfl, rfl, fun hnot _ hactive => ?_⟩
      rcases hp x hx hchosen with h | h
      · exact absurd h hnot
      · exact absurd hactive h
    · exact ⟨rfl, rfl, fun _ h _ => h⟩

/-- What an operator asks for leaves the rows of sessions to their hosts. -/
theorem rowsKept_change (ex : Text → Prop) (h : AdmissionChange False now db db') :
    RowsKept ex db db' := by
  have hsame := rowsKept_refl ex db
  cases h with
  | same => exact hsame
  | issued row hfresh hunused hsessions hbytes | settled p f hp hf =>
    exact ⟨⟨hsame.hosts.known, hsame.hosts.active, hsame.hosts.named⟩, hsame.back, hsame.forth⟩
  | claimed secrets row host_id key token hid hrow hunused hfresh =>
    refine ⟨⟨?_, ?_, ?_⟩, hsame.back, fun x hx => ⟨x, hx, rfl, rfl, fun _ h _ => h⟩⟩
    · intro h hknown
      unfold HostKnown claimedBy
      rw [List.map_append]
      exact List.mem_append_left _ hknown
    · rintro h hknown ⟨x, hx, hxid, hactive⟩
      rcases List.mem_append.mp hx with hx | hx
      · exact ⟨x, hx, hxid, hactive⟩
      · have hsame : host_id = h := by
          rw [List.mem_singleton.mp hx] at hxid
          exact hxid
        subst hsame
        exact absurd hknown hfresh
    · intro hnamed
      refine Table.forall_append hnamed ?_
      show Named host_id
      rw [hid]
      exact named_host_id token
  | host_revoked host_id =>
    refine released_update (hostsKept_update db.sessions (fun x => rfl) fun x h => by simp at h) ?_
    rintro x hx hchosen
    right
    rintro ⟨y, hy, hyid, hyactive⟩
    simp only [activeOf, Bool.and_eq_true, decide_eq_true_eq] at hchosen
    obtain ⟨old, hold, rfl⟩ := Table.mem_update.mp hy
    split at hyactive
    · simp at hyactive
    · rename_i hnot
      rw [if_neg hnot, hchosen.1] at hyid
      simp [hyid, hyactive] at hnot
  | reserved hservice | released hservice | reconciled hservice => exact hservice.elim

theorem accept_db (l : AdmissionLedger) (now : Seconds) (host_id : Text) (byte_count : ℤ) :
    (l.accept now host_id byte_count).db = l.db ∨
      l.db.record_host_bytes now host_id byte_count =
        .ok ((), (l.accept now host_id byte_count).db) := by
  unfold AdmissionLedger.accept
  cases hrecord : l.db.record_host_bytes now host_id byte_count with
  | error e => exact .inl rfl
  | ok outcome =>
    right
    dsimp only
    cases outcome.2.host (strip host_id) with
    | none => rfl
    | some host => rfl

/-- A call of an operator keeps the accounts and leaves the rows of sessions alone. -/
theorem operator_kept (secrets : AdmissionSecrets) (hdb : Accounts db) (now : Seconds)
    (call : OperatorCall) (ex : Text → Prop) :
    let db' := (AdmissionLedger.step secrets ⟨db, []⟩ (now, call.call)).db
    Accounts db' ∧ RowsKept ex db db' := by
  have hchange : ∀ {db'}, AdmissionChange False now db db' → Accounts db' ∧ RowsKept ex db db' :=
    fun h => ⟨accounts_change hdb h, rowsKept_change ex h⟩
  have hcommit : ∀ {α : Type} (outcome : Except RelayAdmissionError (α × AdmissionDatabase)),
      (∀ a db', outcome = .ok (a, db') → AdmissionChange False now db db') →
      Accounts (AdmissionLedger.commit ⟨db, []⟩ outcome).db ∧
        RowsKept ex db (AdmissionLedger.commit ⟨db, []⟩ outcome).db := by
    intro α outcome h
    cases houtcome : outcome with
    | error e => exact hchange .same
    | ok result => exact hchange (h result.1 result.2 houtcome)
  cases call with
  | issue_invitation ttl max_sessions max_bytes token secret =>
    exact hcommit _ fun a db' h => issue_change h
  | claim_invitation invitation key token => exact hcommit _ fun a db' h => claim_change h
  | revoke_invitation invite_id => exact hcommit _ fun a db' h => revoke_invitation_change h
  | expire_due_invitations =>
    show Accounts (List.foldl _ db _) ∧ RowsKept ex db (List.foldl _ db _)
    generalize (db.due_invitations now).map (fun row => row.invite_id) = ids
    clear hchange hcommit
    induction ids generalizing db with
    | nil => exact ⟨hdb, rowsKept_refl ex db⟩
    | cons invite_id ids ih =>
      have hfirst : AdmissionChange False now db (db.expire_invitation now invite_id) :=
        expire_change db invite_id
      have haccounts := accounts_change hdb hfirst
      obtain ⟨hlast, hrows⟩ := ih haccounts
      exact ⟨hlast, rowsKept_trans (rowsKept_change ex hfirst) hdb.session_host hrows⟩
  | revoke_host host_id => exact hcommit _ fun a db' h => revoke_host_change h
  | record_host_bytes host_id byte_count =>
    show Accounts (AdmissionLedger.accept ⟨db, []⟩ now host_id byte_count).db ∧
      RowsKept ex db (AdmissionLedger.accept ⟨db, []⟩ now host_id byte_count).db
    rcases accept_db ⟨db, []⟩ now host_id byte_count with h | h
    · rw [h]
      exact hchange .same
    · obtain ⟨host, hhost, hid, hactive, hcount, hroom, hdb'⟩ := record_ok h
      rw [hdb']
      exact ⟨accounts_recorded now hdb hhost hcount hroom,
        hostsKept_update _ (fun x => rfl) fun x h => h, fun x hx => ⟨x, hx, rfl, rfl, id⟩,
        fun x hx => ⟨x, hx, rfl, rfl, fun _ h _ => h⟩⟩

theorem release_eq {x : RelayHostSession} {host : RelayHost} (now : Seconds)
    (hid : Named x.session_id) (hof : Named x.host_id) (hhost : db.host x.host_id = some host)
    (hactive : host.state = .active) (hx : db.session x.session_id = some x) :
    db.release_host_session now x.host_id x.session_id =
      .ok ((), if x.state = .active then { db with
        hosts := Table.update (fun row => row.host_id = x.host_id && row.state = .active)
          (fun row => { row with
            active_sessions := if row.active_sessions > 0 then row.active_sessions - 1 else 0
            updated_at := (now : ℤ) })
          db.hosts
        sessions := Table.update
          (fun row => row.session_id = x.session_id && row.state = .active)
          (fun row => { row with state := .released, released_at := some (now : ℤ) })
          db.sessions } else db) := by
  unfold release_host_session
  rw [admission_text_named hid, admission_text_named hof]
  simp only [bind, Except.bind, hhost, hx, require_active_host_row, valueOr, refuseIf, hactive,
    pure, Except.pure, ne_eq, not_true_eq_false, if_false]
  split
  · rfl
  · rfl

/-- A release of a row leaves the others alone, and the row is not active then unless its
host is gone. -/
theorem released_rows (hdb : Accounts db) (hnamed : HostsNamed db) {x : RelayHostSession}
    (hx : x ∈ db.sessions) (hid : Named x.session_id) (now : Seconds) :
    match db.release_host_session now x.host_id x.session_id with
    | .error _ => ¬ HostActive db x.host_id
    | .ok (_, db') => Accounts db' ∧ RowsKept (· = x.session_id) db db' ∧
        ∀ x' ∈ db'.sessions, x'.session_id = x.session_id → x'.state = .released := by
  have hselect : db.session x.session_id = some x := Table.select_of_mem hdb.session_ids hx
  obtain ⟨host, hhost, hhid⟩ := List.mem_map.mp (hdb.session_host x hx)
  have hhost' : db.host x.host_id = some host := by
    rw [← hhid]
    exact Table.select_of_mem hdb.host_ids hhost
  have hof : Named x.host_id := hhid ▸ hnamed host hhost
  cases houtcome : db.release_host_session now x.host_id x.session_id with
  | error e =>
    rintro ⟨other, hother, hoid, hactive⟩
    have hsame := Table.eq_of_key hdb.host_ids hother hhost (hoid.trans hhid.symm)
    subst hsame
    rw [release_eq now hid hof hhost' hactive hselect] at houtcome
    simp at houtcome
  | ok outcome =>
    obtain ⟨_, db'⟩ := outcome
    refine ⟨accounts_change hdb (release_change houtcome), ?_⟩
    have hactive : host.state = .active := by
      simp only [release_host_session, bind_ok] at houtcome
      obtain ⟨name, hname, _, _, found, hfound, _⟩ := houtcome
      rw [admission_text_named hof] at hname
      rw [← Except.ok.inj hname] at hfound
      obtain ⟨hsame, hstate⟩ := require_active_ok hfound
      rw [hhost'] at hsame
      rw [Option.some.inj hsame]
      exact hstate
    rw [release_eq now hid hof hhost' hactive hselect] at houtcome
    simp only [Except.ok.injEq, Prod.mk.injEq, true_and] at houtcome
    subst houtcome
    split
    · refine ⟨released_update (hostsKept_update db.sessions (fun x => rfl) fun x h => h) ?_, ?_⟩
      · intro row _ hchosen
        simp only [Bool.and_eq_true, decide_eq_true_eq] at hchosen
        exact .inl hchosen.1
      · intro row hrow hsid
        obtain ⟨old, hold, rfl⟩ := Table.mem_update.mp hrow
        split
        · rfl
        · rename_i hnot
          rw [if_neg hnot] at hsid
          cases hstate : old.state with
          | active => simp [hsid, hstate] at hnot
          | released => rfl
    · rename_i hreleased
      refine ⟨rowsKept_refl _ db, fun row hrow hsid => ?_⟩
      rw [Table.eq_of_key hdb.session_ids hrow hx hsid]
      cases hstate : x.state with
      | active => exact absurd hstate hreleased
      | released => rfl

variable {session_id : Text}

theorem reserved_rows (hdb : Accounts db) {host_id : Text} (hof : Named host_id)
    (h : db.reserve_host_session now host_id session_id = .ok (false, db')) :
    Accounts db' ∧ HostsKept db db' ∧ strip session_id ≠ [] ∧
      strip session_id ∉ (db.sessions.map fun x => x.session_id) ∧
      db'.sessions = db.sessions ++ [{
        session_id := strip session_id
        host_id := host_id
        state := .active
        reserved_at := now
        released_at := none }] := by
  refine ⟨accounts_change hdb (reserve_change h), ?_⟩
  simp only [reserve_host_session, admission_text_named hof, bind_ok, Except.ok.injEq,
    exists_eq_left'] at h
  obtain ⟨sid, hsid, host, hhost, h⟩ := h
  obtain ⟨rfl, hne⟩ := admission_text_ok hsid
  cases hsession : db.session (strip session_id) with
  | some existing =>
    simp [hsession, pure, Except.pure, bind, Except.bind, refuseIf] at h
    split at h <;> simp at h
  | none =>
    simp only [hsession, bind_ok, refuseIf_ok, valueOr_ok, pure_ok, Prod.mk.injEq] at h
    obtain ⟨limit, hlimit, _, hroom, rows, hrows, _, rfl⟩ := h
    obtain ⟨hfresh, rfl⟩ := Table.insert_some hrows
    exact ⟨hostsKept_update _ (fun x => rfl) fun x h => h, hne, hfresh, rfl⟩

theorem reserve_idempotent {host_id : Text}
    (h : db.reserve_host_session now host_id session_id = .ok (true, db')) : db' = db := by
  simp only [reserve_host_session, bind_ok] at h
  obtain ⟨_, _, session_id, _, host, _, h⟩ := h
  cases hsession : db.session session_id with
  | some existing =>
    simp only [hsession, bind_ok, refuseIf_ok, pure_ok, Prod.mk.injEq] at h
    obtain ⟨_, _, _, rfl⟩ := h
    rfl
  | none =>
    simp only [hsession, bind_ok, refuseIf_ok, valueOr_ok, pure_ok, Prod.mk.injEq] at h
    obtain ⟨_, _, _, _, _, _, hfalse, _⟩ := h
    simp at hfalse

theorem reconciled_rows (hdb : Accounts db) (now : Seconds) :
    let db' := (db.reconcile_active_sessions now).2
    Accounts db' ∧ HostsKept db db' ∧ (∀ x ∈ db'.sessions, x.state = .released) ∧
      db'.sessions.map (fun x => x.session_id) = db.sessions.map fun x => x.session_id := by
  dsimp only
  refine ⟨accounts_change hdb (reconcile_change db), ?_⟩
  unfold reconcile_active_sessions
  dsimp only
  split
  · rename_i hnone
    refine ⟨hostsKept_refl db, fun x hx => ?_, rfl⟩
    have hnot := List.countP_eq_zero.mp hnone x hx
    cases hstate : x.state with
    | active => simp [hstate] at hnot
    | released => rfl
  · refine ⟨hostsKept_update _ (fun x => rfl) fun x h => h, fun x hx => ?_,
      Table.map_update fun x => rfl⟩
    obtain ⟨old, hold, rfl⟩ := Table.mem_update.mp hx
    split
    · rfl
    · rename_i hnot
      cases hstate : old.state with
      | active => simp [hstate] at hnot
      | released => rfl

variable {r r' : ReservationService}

/-- The session is in `_sessions`. -/
def Live (r : ReservationService) (session_id host_id : Text) : Prop :=
  ∃ s ∈ r.sessions, s.session_id = session_id ∧ s.host_id = host_id

def Opens (r : ReservationService) (session_id host_id : Text) : Prop :=
  ∃ c hello authorization host, r.phone c = .reserved hello authorization host ∧
    hello.session_id = session_id ∧ hello.host_id = host_id

/-- Who holds the reservation of a session. -/
def Held (r : ReservationService) (session_id host_id : Text) : Prop :=
  Live r session_id host_id ∨ Opens r session_id host_id

/-- What the invariant says of the two stores' rows and the held sessions. -/
structure RowsHeld (r : ReservationService) : Prop where
  accounts : Accounts r.db
  hosts : HostsNamed r.db
  sessions : ∀ x ∈ r.db.sessions, Named x.session_id
  row : ∀ sid h, Held r sid h → ∃ x ∈ r.db.sessions, x.session_id = sid ∧ x.host_id = h ∧
    (HostActive r.db h → x.state = .active)
  held : ∀ x ∈ r.db.sessions, x.state = .active → HostActive r.db x.host_id →
    Held r x.session_id x.host_id

/-- What it says of handlers and sessions among themselves. -/
structure HandlersApart (r : ReservationService) : Prop where
  live : (r.sessions.map fun s => s.session_id).Nodup
  unclosed : ∀ s ∈ r.sessions, s.closed = false
  apart : ∀ c hello authorization host, r.phone c = .reserved hello authorization host →
    ∀ s ∈ r.sessions, s.session_id ≠ hello.session_id
  distinct : ∀ c hello authorization host c' hello' authorization' host',
    r.phone c = .reserved hello authorization host →
    r.phone c' = .reserved hello' authorization' host' →
    hello.session_id = hello'.session_id → c = c'
  verified : ∀ c hello authorization, r.phone c = .looking hello authorization →
    authorization.session_id = hello.session_id ∧ HostKnown r.db hello.host_id
  claimed : ∀ c hello authorization host, r.phone c = .reserved hello authorization host →
    authorization.session_id = hello.session_id

/-- What it says of the sessions opened so far. -/
structure OpenedOnce (r : ReservationService) : Prop where
  registered : ∀ o ∈ r.opened, o.registered = some o.session.host
  ids : ∀ o ∈ r.opened, o.authorization.session_id = o.session.session_id
  once : (r.opened.map fun o => o.session.session_id).Nodup
  known : ∀ o ∈ r.opened, ∃ x ∈ r.db.sessions, x.session_id = o.session.session_id
  unopened : ∀ c hello authorization host, r.phone c = .reserved hello authorization host →
    ∀ o ∈ r.opened, o.session.session_id ≠ hello.session_id

structure Reserved (r : ReservationService) : Prop where
  rows : RowsHeld r
  handlers : HandlersApart r
  opened : OpenedOnce r

theorem reserved_start : Reserved (start .empty [] []) := by
  refine ⟨⟨accounts_empty, ?_, ?_, ?_, ?_⟩, ⟨?_, ?_, ?_, ?_, ?_, ?_⟩, ⟨?_, ?_, ?_, ?_, ?_⟩⟩ <;>
    simp [start, AdmissionDatabase.empty, HostsNamed, Held, Live, Opens]

/-! Each part of the invariant is kept by what may happen to it. -/

theorem RowsHeld.same (h : RowsHeld r) (hdb : r'.db = r.db)
    (hheld : ∀ sid h, Held r' sid h ↔ Held r sid h) : RowsHeld r' := by
  refine ⟨hdb ▸ h.accounts, hdb ▸ h.hosts, hdb ▸ h.sessions, ?_, ?_⟩
  · intro sid host_id hsid
    rw [hdb]
    exact h.row sid host_id ((hheld sid host_id).mp hsid)
  · intro x hx hstate hactive
    rw [hdb] at hx hactive
    exact (hheld _ _).mpr (h.held x hx hstate hactive)

/-- Rows that are given up are no longer held. -/
theorem RowsHeld.kept (h : RowsHeld r) {ex : Text → Prop} (haccounts : Accounts r'.db)
    (hrows : RowsKept ex r.db r'.db)
    (hheld : ∀ sid h, Held r' sid h ↔ Held r sid h ∧ ¬ ex sid)
    (hgone : ∀ x' ∈ r'.db.sessions, ex x'.session_id → HostActive r'.db x'.host_id →
      x'.state = .released) : RowsHeld r' := by
  have hknown : ∀ x ∈ r.db.sessions, HostKnown r.db x.host_id := h.accounts.session_host
  refine ⟨haccounts, hrows.hosts.named h.hosts, ?_, ?_, ?_⟩
  · intro x' hx'
    obtain ⟨x, hx, hid, _⟩ := hrows.back x' hx'
    rw [← hid]
    exact h.sessions x hx
  · intro sid host_id hsid
    obtain ⟨hbefore, hnot⟩ := (hheld sid host_id).mp hsid
    obtain ⟨x, hx, rfl, rfl, hstate⟩ := h.row sid host_id hbefore
    obtain ⟨x', hx', hid, hof, hstate'⟩ := hrows.forth x hx
    refine ⟨x', hx', hid, hof, fun hactive => ?_⟩
    exact hstate' hnot (hstate (hrows.hosts.active _ (hknown x hx) hactive)) hactive
  · intro x' hx' hstate' hactive
    obtain ⟨x, hx, hid, hof, hstate⟩ := hrows.back x' hx'
    refine (hheld _ _).mpr ⟨?_, ?_⟩
    · rw [← hof] at hactive
      rw [← hid, ← hof]
      exact h.held x hx (hstate hstate') (hrows.hosts.active _ (hknown x hx) hactive)
    · intro hsid
      rw [hgone x' hx' hsid hactive] at hstate'
      exact absurd hstate' (by decide)

theorem HandlersApart.fewer (h : HandlersApart r) (hsessions : r'.sessions.Sublist r.sessions)
    (hreserved : ∀ c hello authorization host, r'.phone c = .reserved hello authorization host →
      r.phone c = .reserved hello authorization host)
    (hlooking : ∀ c hello authorization, r'.phone c = .looking hello authorization →
      authorization.session_id = hello.session_id ∧ HostKnown r'.db hello.host_id) :
    HandlersApart r' where
  live := h.live.sublist (hsessions.map _)
  unclosed s hs := h.unclosed s (hsessions.subset hs)
  apart c hello authorization host hc s hs :=
    h.apart c hello authorization host (hreserved _ _ _ _ hc) s (hsessions.subset hs)
  distinct c hello authorization host c' hello' authorization' host' hc hc' :=
    h.distinct c hello authorization host c' hello' authorization' host' (hreserved _ _ _ _ hc)
      (hreserved _ _ _ _ hc')
  verified := hlooking
  claimed c hello authorization host hc :=
    h.claimed c hello authorization host (hreserved _ _ _ _ hc)

theorem OpenedOnce.fewer (h : OpenedOnce r) (hopened : r'.opened = r.opened)
    (hrows : ∀ x ∈ r.db.sessions, ∃ x' ∈ r'.db.sessions, x'.session_id = x.session_id)
    (hreserved : ∀ c hello authorization host, r'.phone c = .reserved hello authorization host →
      r.phone c = .reserved hello authorization host) : OpenedOnce r' := by
  refine ⟨hopened ▸ h.registered, hopened ▸ h.ids, hopened ▸ h.once, ?_, ?_⟩
  · rw [hopened]
    intro o ho
    obtain ⟨x, hx, hid⟩ := h.known o ho
    obtain ⟨x', hx', hid'⟩ := hrows x hx
    exact ⟨x', hx', hid'.trans hid⟩
  · intro c hello authorization host hc
    rw [hopened]
    exact h.unopened c hello authorization host (hreserved _ _ _ _ hc)

/-- Steps of a handler that neither take a reservation nor give one up. -/
theorem reserved_same (hr : Reserved r) (hdb : r'.db = r.db) (hsessions : r'.sessions = r.sessions)
    (hopened : r'.opened = r.opened)
    (hreserved : ∀ c hello authorization host,
      r'.phone c = .reserved hello authorization host ↔
        r.phone c = .reserved hello authorization host)
    (hlooking : ∀ c hello authorization, r'.phone c = .looking hello authorization →
      authorization.session_id = hello.session_id ∧ HostKnown r.db hello.host_id) :
    Reserved r' := by
  have hheld : ∀ sid h, Held r' sid h ↔ Held r sid h := by
    intro sid h
    unfold Held Live Opens
    simp only [hsessions, hreserved]
  refine ⟨hr.rows.same hdb hheld,
    hr.handlers.fewer (hsessions ▸ List.Sublist.refl _) (fun _ _ _ _ => (hreserved ..).mp) ?_,
    hr.opened.fewer hopened ?_ fun _ _ _ _ => (hreserved ..).mp⟩
  · rw [hdb]
    exact hlooking
  · rw [hdb]
    exact fun x hx => ⟨x, hx, rfl⟩

variable {c : ConnectionId}

theorem phone_self (r : ReservationService) (c : ConnectionId) (point : PhonePoint) :
    (r.set_phone c point).phone c = point := Function.update_self ..

theorem set_phone_phone {c' : ConnectionId} {point q : PhonePoint} :
    (r.set_phone c point).phone c' = q ↔ c' = c ∧ point = q ∨ c' ≠ c ∧ r.phone c' = q := by
  by_cases hc : c' = c
  · subst hc
    simp [phone_self]
  · have hother : (r.set_phone c point).phone c' = r.phone c' := Function.update_of_ne hc ..
    simp [hother, hc]

theorem reserved_set_phone (hr : Reserved r) {point : PhonePoint}
    (hbefore : ∀ hello authorization host, r.phone c ≠ .reserved hello authorization host)
    (hafter : ∀ hello authorization host, point ≠ .reserved hello authorization host)
    (hlooking : ∀ hello authorization, point = .looking hello authorization →
      authorization.session_id = hello.session_id ∧ HostKnown r.db hello.host_id) :
    Reserved (r.set_phone c point) := by
  refine reserved_same hr rfl rfl rfl ?_ ?_
  · intro c' hello authorization host
    rw [set_phone_phone]
    constructor
    · rintro (⟨_, h⟩ | ⟨_, h⟩)
      · exact absurd h (hafter _ _ _)
      · exact h
    · intro h
      refine .inr ⟨?_, h⟩
      rintro rfl
      exact hbefore _ _ _ h
  · intro c' hello authorization h
    obtain ⟨_, h⟩ | ⟨_, h⟩ := set_phone_phone.mp h
    · exact hlooking hello authorization h
    · exact hr.handlers.verified c' hello authorization h

theorem reserved_ended (hr : Reserved r)
    (hbefore : ∀ hello authorization host, r.phone c ≠ .reserved hello authorization host) :
    Reserved (r.set_phone c .ended) :=
  reserved_set_phone hr hbefore (fun _ _ _ => by simp) fun _ _ h => by simp at h

/-- Calls of the store that leave the rows of sessions alone. -/
theorem reserved_db (hr : Reserved r) {db' : AdmissionDatabase} (haccounts : Accounts db')
    (hrows : RowsKept (fun _ => False) r.db db') : Reserved { r with db := db' } := by
  refine ⟨hr.rows.kept haccounts hrows (fun _ _ => (and_iff_left not_false).symm)
      fun _ _ hfalse => hfalse.elim,
    hr.handlers.fewer (List.Sublist.refl _) (fun _ _ _ _ hc => hc) ?_,
    hr.opened.fewer rfl ?_ fun _ _ _ _ hc => hc⟩
  · intro c hello authorization hc
    obtain ⟨hid, hhost⟩ := hr.handlers.verified c hello authorization hc
    exact ⟨hid, hrows.hosts.known _ hhost⟩
  · intro x hx
    obtain ⟨x', hx', hid, _⟩ := hrows.forth x hx
    exact ⟨x', hx', hid⟩

theorem release_reserved_eq (r : ReservationService) (now : Seconds) (host_id session_id : Text) :
    r.release_reserved_session now host_id session_id =
      { r with db := (r.release_reserved_session now host_id session_id).db } := by
  unfold release_reserved_session
  cases r.db.release_host_session now host_id session_id with
  | error e => rfl
  | ok outcome => rfl

theorem release_db_congr (h : r'.db = r.db) (now : Seconds) (host_id session_id : Text) :
    (r'.release_reserved_session now host_id session_id).db =
      (r.release_reserved_session now host_id session_id).db := by
  unfold release_reserved_session
  rw [h]
  cases r.db.release_host_session now host_id session_id with
  | error e => exact h
  | ok outcome => rfl

theorem release_held (hr : Reserved r) {sid h : Text} (hheld : Held r sid h) (now : Seconds) :
    let db' := (r.release_reserved_session now h sid).db
    Accounts db' ∧ RowsKept (· = sid) r.db db' ∧
      ∀ x' ∈ db'.sessions, x'.session_id = sid → HostActive db' x'.host_id →
        x'.state = .released := by
  obtain ⟨x, hx, rfl, rfl, _⟩ := hr.rows.row sid h hheld
  have hrows := released_rows hr.rows.accounts hr.rows.hosts hx (hr.rows.sessions x hx) now
  unfold release_reserved_session
  cases houtcome : r.db.release_host_session now x.host_id x.session_id with
  | error e =>
    rw [houtcome] at hrows
    refine ⟨hr.rows.accounts, rowsKept_refl _ _, fun x' hx' hid hactive => ?_⟩
    rw [Table.eq_of_key hr.rows.accounts.session_ids hx' hx hid] at hactive
    exact absurd hactive hrows
  | ok outcome =>
    rw [houtcome] at hrows
    exact ⟨hrows.1, hrows.2.1, fun x' hx' hid _ => hrows.2.2 x' hx' hid⟩

theorem reserved_let_go (hr : Reserved r) {sid h : Text} (hheld : Held r sid h) (now : Seconds)
    (hdb : r'.db = (r.release_reserved_session now h sid).db) (hopened : r'.opened = r.opened)
    (hsessions : r'.sessions = r.sessions.filter fun s => s.session_id ≠ sid)
    (hreserved : ∀ c hello authorization host,
      r'.phone c = .reserved hello authorization host ↔
        r.phone c = .reserved hello authorization host ∧ hello.session_id ≠ sid)
    (hlooking : ∀ c hello authorization, r'.phone c = .looking hello authorization →
      r.phone c = .looking hello authorization) : Reserved r' := by
  obtain ⟨haccounts, hrows, hgone⟩ := release_held hr hheld now
  rw [← hdb] at haccounts hrows hgone
  have hothers : ∀ sid' h', Held r' sid' h' ↔ Held r sid' h' ∧ sid' ≠ sid := by
    intro sid' h'
    unfold Held Live Opens
    simp only [hsessions, hreserved, List.mem_filter, decide_eq_true_eq]
    constructor
    · rintro (⟨s, ⟨hs, hne⟩, rfl, hof⟩ | ⟨_, _, _, _, ⟨hc, hne⟩, rfl, hof⟩)
      · exact ⟨.inl ⟨s, hs, rfl, hof⟩, hne⟩
      · exact ⟨.inr ⟨_, _, _, _, hc, rfl, hof⟩, hne⟩
    · rintro ⟨⟨s, hs, rfl, hof⟩ | ⟨_, _, _, _, hc, rfl, hof⟩, hne⟩
      · exact .inl ⟨s, ⟨hs, hne⟩, rfl, hof⟩
      · exact .inr ⟨_, _, _, _, ⟨hc, hne⟩, rfl, hof⟩
  have hbefore : ∀ c hello authorization host, r'.phone c = .reserved hello authorization host →
      r.phone c = .reserved hello authorization host :=
    fun _ _ _ _ hc => ((hreserved ..).mp hc).1
  refine ⟨hr.rows.kept haccounts hrows hothers hgone,
    hr.handlers.fewer (hsessions ▸ List.filter_sublist) hbefore ?_,
    hr.opened.fewer hopened ?_ hbefore⟩
  · intro c hello authorization hc
    obtain ⟨hid, hhost⟩ := hr.handlers.verified c hello authorization (hlooking _ _ _ hc)
    exact ⟨hid, hrows.hosts.known _ hhost⟩
  · intro x hx
    obtain ⟨x', hx', hid, _⟩ := hrows.forth x hx
    exact ⟨x', hx', hid⟩

variable {hello : ClientHello} {authorization : PhoneAuthorization}

/-- An open that fails, or is cancelled, after its reservation. -/
theorem reserved_abort (hr : Reserved r) {host : EndpointId}
    (hc : r.phone c = .reserved hello authorization host) (now : Seconds) :
    Reserved ((r.release_reserved_session now hello.host_id hello.session_id).set_phone c
      .ended) := by
  have hheld : Held r hello.session_id hello.host_id :=
    .inr ⟨c, hello, authorization, host, hc, rfl, rfl⟩
  have hafter : (r.release_reserved_session now hello.host_id hello.session_id).set_phone c .ended =
      { r with db := (r.release_reserved_session now hello.host_id hello.session_id).db }.set_phone
        c .ended := by
    rw [← release_reserved_eq]
  rw [hafter]
  refine reserved_let_go hr hheld now rfl rfl ?_ ?_ ?_
  · refine (List.filter_eq_self.mpr fun s hs => ?_).symm
    simpa using hr.handlers.apart c hello authorization host hc s hs
  · intro c' hello' authorization' host'
    rw [set_phone_phone]
    constructor
    · rintro (⟨_, h⟩ | ⟨hcc, h⟩)
      · cases h
      · exact ⟨h, fun hid => hcc (hr.handlers.distinct _ _ _ _ _ _ _ _ h hc hid)⟩
    · rintro ⟨h, hid⟩
      refine .inr ⟨?_, h⟩
      rintro rfl
      rw [hc] at h
      cases h
      exact hid rfl
  · intro c' hello' authorization' h
    obtain ⟨_, h⟩ | ⟨_, h⟩ := set_phone_phone.mp h
    · cases h
    · exact h

theorem release_set_phone (r : ReservationService) (c : ConnectionId) (p q : PhonePoint)
    (now : Seconds) (host_id session_id : Text) :
    ((r.set_phone c p).release_reserved_session now host_id session_id).set_phone c q =
      (r.release_reserved_session now host_id session_id).set_phone c q := by
  have hdb : ((r.set_phone c p).release_reserved_session now host_id session_id).db =
      (r.release_reserved_session now host_id session_id).db := by
    refine release_db_congr ?_ now host_id session_id
    rfl
  rw [release_reserved_eq, hdb, release_reserved_eq r]
  simp [set_phone]

theorem reserved_close (hr : Reserved r) (now : Seconds) (session_id : Text) :
    Reserved (r.close_session now session_id) := by
  unfold close_session
  cases hfound : r.sessions.find? fun s => s.session_id = session_id with
  | none => exact hr
  | some session =>
    have hmem := List.mem_of_find?_eq_some hfound
    have hid : session.session_id = session_id := by simpa using List.find?_some hfound
    subst hid
    have hheld : Held r session.session_id session.host_id := .inl ⟨session, hmem, rfl, rfl⟩
    dsimp only
    rw [hr.handlers.unclosed session hmem, if_neg (by simp), release_reserved_eq]
    refine reserved_let_go hr hheld now ?_ rfl rfl ?_ fun c hello authorization h => h
    · refine release_db_congr ?_ now _ _
      rfl
    intro c hello authorization host
    refine ⟨fun h => ⟨h, fun hid => ?_⟩, fun h => h.1⟩
    exact hr.handlers.apart c hello authorization host h session hmem hid.symm

theorem close_phone (r : ReservationService) (now : Seconds) (session_id : Text) :
    (r.close_session now session_id).phone = r.phone := by
  unfold close_session
  split
  · rfl
  · dsimp only
    split
    · rfl
    · rw [release_reserved_eq]

theorem has_session_false (h : r.has_session session_id = false) :
    ∀ s ∈ r.sessions, s.session_id ≠ session_id := by
  intro s hs
  have hs' := List.any_eq_false.mp h s hs
  simpa using hs'

/-- The state when the session is reserved and the authorization is about to be claimed. -/
theorem reserved_take (hr : Reserved r) {now : Seconds}
    (hc : r.phone c = .looking hello authorization)
    (hfree : r.has_session hello.session_id = false) {db' : AdmissionDatabase}
    (hreserve : r.db.reserve_host_session now hello.host_id hello.session_id = .ok (false, db'))
    (claims : List RendezvousClaim) (host : EndpointId) :
    Reserved ({ r with db := db', claims := claims }.set_phone c
      (.reserved hello authorization host)) := by
  obtain ⟨hid, hknown⟩ := hr.handlers.verified c hello authorization hc
  obtain ⟨x, hx, hxid⟩ := List.mem_map.mp hknown
  obtain ⟨haccounts, hhosts, hne, hfresh, hsessions⟩ :=
    reserved_rows hr.rows.accounts (hxid ▸ hr.rows.hosts x hx) hreserve
  rw [hello.stripped] at hne hfresh hsessions
  have hknown' : ∀ x ∈ r.db.sessions, HostKnown r.db x.host_id := hr.rows.accounts.session_host
  generalize hr' : ({ r with db := db', claims := claims }.set_phone c
    (.reserved hello authorization host)) = r'
  have hdb : r'.db = db' := by rw [← hr']; rfl
  have hlive : r'.sessions = r.sessions := by rw [← hr']; rfl
  have hopened : r'.opened = r.opened := by rw [← hr']; rfl
  have hphone : ∀ {c' q}, r'.phone c' = q ↔
      c' = c ∧ .reserved hello authorization host = q ∨ c' ≠ c ∧ r.phone c' = q := by
    rw [← hr']
    exact set_phone_phone
  -- a session that was held before has a row, which this one has not
  have hunheld : ∀ h, ¬ Held r hello.session_id h := by
    intro h hheld
    obtain ⟨x, hx, hxid, _⟩ := hr.rows.row _ _ hheld
    exact hfresh (List.mem_map.mpr ⟨x, hx, hxid⟩)
  have hheld : ∀ sid h, Held r' sid h ↔
      Held r sid h ∨ sid = hello.session_id ∧ h = hello.host_id := by
    intro sid h
    unfold Held Live
    rw [hlive]
    constructor
    · rintro (hs | ⟨c', _, _, _, hc', rfl, rfl⟩)
      · exact .inl (.inl hs)
      · obtain ⟨_, hself⟩ | ⟨_, hc'⟩ := hphone.mp hc'
        · cases hself
          exact .inr ⟨rfl, rfl⟩
        · exact .inl (.inr ⟨c', _, _, _, hc', rfl, rfl⟩)
    · rintro ((hs | ⟨c', _, _, _, hc', rfl, rfl⟩) | ⟨rfl, rfl⟩)
      · exact .inl hs
      · refine .inr ⟨c', _, _, _, hphone.mpr (.inr ⟨?_, hc'⟩), rfl, rfl⟩
        rintro rfl
        rw [hc] at hc'
        cases hc'
      · exact .inr ⟨c, _, _, _, hphone.mpr (.inl ⟨rfl, rfl⟩), rfl, rfl⟩
  -- where a handler is after the step
  have hpoint : ∀ c' hello' authorization' host',
      r'.phone c' = .reserved hello' authorization' host' →
        r.phone c' = .reserved hello' authorization' host' ∨
          c' = c ∧ hello' = hello ∧ authorization' = authorization := by
    intro c' hello' authorization' host' hc'
    obtain ⟨hcc, hself⟩ | ⟨_, hc'⟩ := hphone.mp hc'
    · cases hself
      exact .inr ⟨hcc, rfl, rfl⟩
    · exact .inl hc'
  have hunopened : ∀ c' hello' authorization' host',
      r.phone c' = .reserved hello' authorization' host' →
        hello'.session_id ≠ hello.session_id := by
    intro c' hello' _ _ hc' hsame
    exact hunheld hello'.host_id (hsame ▸ .inr ⟨c', _, _, _, hc', rfl, rfl⟩)
  refine ⟨⟨?_, ?_, ?_, ?_, ?_⟩, ⟨?_, ?_, ?_, ?_, ?_, ?_⟩, ⟨?_, ?_, ?_, ?_, ?_⟩⟩
  · rw [hdb]
    exact haccounts
  · rw [hdb]
    exact hhosts.named hr.rows.hosts
  · rw [hdb, hsessions]
    exact Table.forall_append hr.rows.sessions ⟨hello.stripped, hne⟩
  · intro sid h hsid
    rw [hdb, hsessions]
    rcases (hheld sid h).mp hsid with hbefore | ⟨rfl, rfl⟩
    · obtain ⟨x, hx, rfl, rfl, hstate⟩ := hr.rows.row sid h hbefore
      exact ⟨x, List.mem_append_left _ hx, rfl, rfl,
        fun hactive => hstate (hhosts.active _ (hknown' x hx) hactive)⟩
    · exact ⟨_, List.mem_append_right _ List.mem_cons_self, rfl, rfl, fun _ => rfl⟩
  · rw [hdb, hsessions]
    intro x hx hstate hactive
    rcases List.mem_append.mp hx with hx | hx
    · exact (hheld _ _).mpr
        (.inl (hr.rows.held x hx hstate (hhosts.active _ (hknown' x hx) hactive)))
    · rw [List.mem_singleton.mp hx]
      exact (hheld _ _).mpr (.inr ⟨rfl, rfl⟩)
  · rw [hlive]
    exact hr.handlers.live
  · rw [hlive]
    exact hr.handlers.unclosed
  · intro c' _ _ _ hc'
    rw [hlive]
    rcases hpoint _ _ _ _ hc' with hc' | ⟨_, rfl, _⟩
    · exact hr.handlers.apart _ _ _ _ hc'
    · exact has_session_false hfree
  · intro _ _ _ _ _ _ _ _ hc₁ hc₂ hsame
    rcases hpoint _ _ _ _ hc₁ with hc₁ | ⟨rfl, rfl, _⟩
    · rcases hpoint _ _ _ _ hc₂ with hc₂ | ⟨rfl, rfl, _⟩
      · exact hr.handlers.distinct _ _ _ _ _ _ _ _ hc₁ hc₂ hsame
      · exact absurd hsame (hunopened _ _ _ _ hc₁)
    · rcases hpoint _ _ _ _ hc₂ with hc₂ | ⟨rfl, rfl, _⟩
      · exact absurd hsame.symm (hunopened _ _ _ _ hc₂)
      · rfl
  · intro c' hello' authorization' hc'
    rw [hdb]
    obtain ⟨_, hself⟩ | ⟨_, hc'⟩ := hphone.mp hc'
    · cases hself
    · obtain ⟨hid', hhost'⟩ := hr.handlers.verified c' hello' authorization' hc'
      exact ⟨hid', hhosts.known _ hhost'⟩
  · intro c' _ _ _ hc'
    rcases hpoint _ _ _ _ hc' with hc' | ⟨_, rfl, rfl⟩
    · exact hr.handlers.claimed _ _ _ _ hc'
    · exact hid
  · rw [hopened]
    exact hr.opened.registered
  · rw [hopened]
    exact hr.opened.ids
  · rw [hopened]
    exact hr.opened.once
  · rw [hopened, hdb, hsessions]
    intro o ho
    obtain ⟨x, hx, hxid⟩ := hr.opened.known o ho
    exact ⟨x, List.mem_append_left _ hx, hxid⟩
  · intro c' _ _ _ hc' o ho
    rw [hopened] at ho
    rcases hpoint _ _ _ _ hc' with hc' | ⟨_, rfl, _⟩
    · exact hr.opened.unopened _ _ _ _ hc' o ho
    · -- what was opened has a row
      intro hsame
      obtain ⟨x, hx, hxid⟩ := hr.opened.known o ho
      exact hfresh (List.mem_map.mpr ⟨x, hx, hxid.trans hsame⟩)

/-- `_open_phone_session` from its first lock to its second. -/
theorem reserved_reserve (hr : Reserved r) (policy : RendezvousPolicy) (now : Seconds)
    (hc : r.phone c = .looking hello authorization) :
    Reserved (r.reserve_session policy now c hello authorization) := by
  have hidle : ∀ hello' authorization' host, r.phone c ≠ .reserved hello' authorization' host := by
    intro hello' authorization' host h
    rw [hc] at h
    simp at h
  unfold reserve_session
  cases hhost : r.hosts hello.host_id with
  | none => exact reserved_ended hr hidle
  | some host =>
    dsimp only
    split
    · exact reserved_ended hr hidle
    · rename_i hfree
      simp only [Bool.or_eq_true, not_or, Bool.not_eq_true] at hfree
      cases houtcome : r.db.reserve_host_session now hello.host_id hello.session_id with
      | error e => exact reserved_ended hr hidle
      | ok outcome =>
        obtain ⟨idempotent, db'⟩ := outcome
        cases idempotent with
        | true =>
          have hsame := reserve_idempotent houtcome
          subst hsame
          exact reserved_ended hr hidle
        | false =>
          dsimp only
          cases hclaim : claim_rendezvous policy now authorization hello.host_id r.claims with
          | error e =>
            dsimp only
            have htaken := reserved_take hr hc hfree.2 houtcome r.claims host
            have habort := reserved_abort htaken (phone_self ..) now
            rw [release_set_phone] at habort
            exact habort
          | ok claims =>
            exact reserved_take hr hc hfree.2 houtcome claims host

theorem reserved_commit (hr : Reserved r) (now : Seconds) {host : EndpointId}
    (hc : r.phone c = .reserved hello authorization host) :
    Reserved (r.commit_session now c hello authorization host) := by
  unfold commit_session
  split
  · exact reserved_abort hr hc now
  · rename_i hfree
    simp only [Bool.or_eq_true, decide_eq_true_eq, not_or, not_not, Bool.not_eq_true] at hfree
    obtain ⟨⟨hregistered, _⟩, hfree⟩ := hfree
    dsimp only
    generalize hr' : ReservationService.set_phone _ c (.serving hello.session_id) = r'
    have hdb : r'.db = r.db := by rw [← hr']; rfl
    have hlive : r'.sessions = r.sessions ++ [{
        session_id := hello.session_id
        host_id := hello.host_id
        host := host
        phone := c
        closed := false }] := by rw [← hr']; rfl
    have hopened : r'.opened = r.opened ++ [{
        authorization := authorization
        session := {
          session_id := hello.session_id
          host_id := hello.host_id
          host := host
          phone := c
          closed := false }
        registered := r.hosts hello.host_id }] := by rw [← hr']; rfl
    have hphone : ∀ {c' q}, r'.phone c' = q ↔
        c' = c ∧ .serving hello.session_id = q ∨ c' ≠ c ∧ r.phone c' = q := by
      rw [← hr']
      exact set_phone_phone
    have hpoint : ∀ {c' hello' authorization' host'},
        r'.phone c' = .reserved hello' authorization' host' →
          c' ≠ c ∧ r.phone c' = .reserved hello' authorization' host' := by
      intro c' hello' authorization' host' hc'
      obtain ⟨_, hself⟩ | hc' := hphone.mp hc'
      · cases hself
      · exact hc'
    -- the handler's hold on the session passes to the service
    have hheld : ∀ sid h, Held r' sid h ↔ Held r sid h := by
      intro sid h
      unfold Held Live
      rw [hlive]
      constructor
      · rintro (⟨s, hs, rfl, hof⟩ | ⟨c', _, _, _, hc', rfl, hof⟩)
        · rcases List.mem_append.mp hs with hs | hs
          · exact .inl ⟨s, hs, rfl, hof⟩
          · rw [List.mem_singleton.mp hs] at hof ⊢
            exact .inr ⟨c, _, _, _, hc, rfl, hof⟩
        · exact .inr ⟨c', _, _, _, (hpoint hc').2, rfl, hof⟩
      · rintro (⟨s, hs, rfl, hof⟩ | ⟨c', _, _, _, hc', rfl, hof⟩)
        · exact .inl ⟨s, List.mem_append_left _ hs, rfl, hof⟩
        · by_cases hcc : c' = c
          · subst hcc
            rw [hc] at hc'
            cases hc'
            exact .inl ⟨_, List.mem_append_right _ List.mem_cons_self, rfl, hof⟩
          · exact .inr ⟨c', _, _, _, hphone.mpr (.inr ⟨hcc, hc'⟩), rfl, hof⟩
    refine ⟨hr.rows.same hdb hheld, ⟨?_, ?_, ?_, ?_, ?_, ?_⟩, ⟨?_, ?_, ?_, ?_, ?_⟩⟩
    · rw [hlive]
      refine Table.nodup_append hr.handlers.live fun hmem => ?_
      obtain ⟨s, hs, hsid⟩ := List.mem_map.mp hmem
      exact has_session_false hfree s hs hsid
    · rw [hlive]
      exact Table.forall_append hr.handlers.unclosed rfl
    · intro c' _ _ _ hc'
      obtain ⟨hcc, hc'⟩ := hpoint hc'
      rw [hlive]
      refine Table.forall_append (hr.handlers.apart _ _ _ _ hc') fun hsame => hcc ?_
      exact (hr.handlers.distinct _ _ _ _ _ _ _ _ hc hc' hsame).symm
    · intro _ _ _ _ _ _ _ _ hc₁ hc₂
      exact hr.handlers.distinct _ _ _ _ _ _ _ _ (hpoint hc₁).2 (hpoint hc₂).2
    · intro c' hello' authorization' hc'
      rw [hdb]
      obtain ⟨_, hself⟩ | ⟨_, hc'⟩ := hphone.mp hc'
      · cases hself
      · exact hr.handlers.verified c' hello' authorization' hc'
    · intro c' _ _ _ hc'
      exact hr.handlers.claimed _ _ _ _ (hpoint hc').2
    · rw [hopened]
      exact Table.forall_append hr.opened.registered hregistered
    · rw [hopened]
      exact Table.forall_append hr.opened.ids (hr.handlers.claimed _ _ _ _ hc)
    · rw [hopened]
      have honce : (r.opened.map fun o : Opening => o.session.session_id).Nodup := hr.opened.once
      refine Table.nodup_append honce fun hmem => ?_
      obtain ⟨o, ho, hoid⟩ := List.mem_map.mp hmem
      exact hr.opened.unopened _ _ _ _ hc o ho hoid
    · rw [hopened, hdb]
      refine Table.forall_append hr.opened.known ?_
      obtain ⟨x, hx, hxid, _⟩ :=
        hr.rows.row _ _ (.inr ⟨c, hello, authorization, host, hc, rfl, rfl⟩)
      exact ⟨x, hx, hxid⟩
    · intro c' _ _ _ hc'
      obtain ⟨hcc, hc'⟩ := hpoint hc'
      rw [hopened]
      refine Table.forall_append (hr.opened.unopened _ _ _ _ hc') fun hsame => hcc ?_
      exact (hr.handlers.distinct _ _ _ _ _ _ _ _ hc hc' hsame).symm

/-- Another process starts on what the last one has left. -/
theorem reserved_restart (hr : Reserved r) (now : Seconds) :
    Reserved (start (r.db.reconcile_active_sessions now).2 r.claims r.opened) := by
  obtain ⟨haccounts, hhosts, hnone, hids⟩ := reconciled_rows hr.rows.accounts now
  have hunheld : ∀ db claims opened sid h, ¬ Held (start db claims opened) sid h := by
    rintro db claims opened sid h (⟨s, hs, _⟩ | ⟨c, hello, authorization, host, hc, _⟩)
    · simp [start] at hs
    · simp [start] at hc
  have hnobody : ∀ db claims opened c hello authorization host,
      (start db claims opened).phone c ≠ .reserved hello authorization host := by
    intro db claims opened c hello authorization host hc
    simp [start] at hc
  refine ⟨⟨haccounts, hhosts.named hr.rows.hosts, ?_, ?_, ?_⟩,
    hr.handlers.fewer (List.nil_sublist _) ?_ ?_, hr.opened.fewer rfl ?_ ?_⟩
  · intro x hx
    have hmem : x.session_id ∈ r.db.sessions.map fun x => x.session_id := by
      rw [← hids]
      exact List.mem_map.mpr ⟨x, hx, rfl⟩
    obtain ⟨old, hold, hid⟩ := List.mem_map.mp hmem
    rw [← hid]
    exact hr.rows.sessions old hold
  · exact fun sid h hheld => absurd hheld (hunheld _ _ _ sid h)
  · intro x hx hstate
    rw [hnone x hx] at hstate
    exact absurd hstate (by decide)
  · exact fun _ _ _ _ hc => (hnobody _ _ _ _ _ _ _ hc).elim
  · intro c hello authorization hc
    simp [start] at hc
  · intro x hx
    have hmem : x.session_id ∈ (r.db.reconcile_active_sessions now).2.sessions.map
        fun x => x.session_id := by
      rw [hids]
      exact List.mem_map.mpr ⟨x, hx, rfl⟩
    exact List.mem_map.mp hmem
  · exact fun _ _ _ _ hc => (hnobody _ _ _ _ _ _ _ hc).elim

theorem verify_ok (h : verify_phone_authorization policy db now hello = .ok authorization) :
    authorization.session_id = hello.session_id ∧ HostKnown db hello.host_id := by
  unfold verify_phone_authorization at h
  cases hkey : host_public_key_for_rendezvous db hello.host_id with
  | error e => simp [hkey] at h
  | ok host_public_key_b64 =>
    simp only [hkey, bind_ok, valueOr_ok, verify_authorization, refuseIf_ok, pure_ok] at h
    obtain ⟨found, _, _, _, _, hsame, _, _, _, _, _, _, rfl⟩ := h
    rw [not_or, not_not, not_not] at hsame
    refine ⟨hsame.2, ?_⟩
    simp only [host_public_key_for_rendezvous, bind_ok] at hkey
    obtain ⟨row, hrow, _⟩ := hkey
    obtain ⟨hmem, hid⟩ := host_ok (require_active_ok hrow).1
    exact List.mem_map.mpr ⟨row, hmem, hid⟩

theorem reserved_phone_turn (hr : Reserved r) (policy : RendezvousPolicy) (now : Seconds)
    (c : ConnectionId) : Reserved (r.phone_turn policy now c) := by
  unfold phone_turn
  cases hc : r.phone c with
  | looking hello authorization => exact reserved_reserve hr policy now hc
  | reserved hello authorization host => exact reserved_commit hr now hc
  | serving session_id =>
    refine reserved_ended (reserved_close hr now session_id) fun hello authorization host h => ?_
    rw [close_phone, hc] at h
    simp at h
  | absent | connected | ended => exact hr

theorem reserved_cancel (hr : Reserved r) (now : Seconds) (c : ConnectionId) :
    Reserved (r.cancel_phone now c) := by
  unfold cancel_phone
  cases hc : r.phone c with
  | absent => exact hr
  | reserved hello authorization host => exact reserved_abort hr hc now
  | serving session_id =>
    refine reserved_ended (reserved_close hr now session_id) fun hello authorization host h => ?_
    rw [close_phone, hc] at h
    simp at h
  | connected | ended => exact reserved_ended hr fun _ _ _ h => by simp [hc] at h
  | looking hello authorization =>
    exact reserved_ended hr fun _ _ _ h => by simp [hc] at h

theorem reserved_hello (hr : Reserved r) (policy : RendezvousPolicy) (now : Seconds)
    (c : ConnectionId) (hello : ClientHello) : Reserved (r.phone_hello policy now c hello) := by
  unfold ReservationService.phone_hello
  cases hc : r.phone c with
  | connected =>
    have hidle : ∀ hello' authorization host, r.phone c ≠ .reserved hello' authorization host := by
      intro hello' authorization host h
      rw [hc] at h
      simp at h
    dsimp only
    cases hverify : verify_phone_authorization policy r.db now hello with
    | error e => exact reserved_ended hr hidle
    | ok authorization =>
      refine reserved_set_phone hr hidle (fun _ _ _ => by simp) fun hello' authorization' h => ?_
      simp only [PhonePoint.looking.injEq] at h
      obtain ⟨rfl, rfl⟩ := h
      exact verify_ok hverify
  | absent => exact hr
  | looking hello authorization => exact hr
  | reserved hello authorization host | serving session_id | ended => exact hr

/-- What holds before a step holds after it. -/
theorem reserved_step (policy : RendezvousPolicy) (secrets : AdmissionSecrets) (hr : Reserved r)
    (s : Seconds × ReservationService.ServiceStep) : Reserved (step policy secrets r s) := by
  obtain ⟨now, s⟩ := s
  have hsame : ∀ {r'}, r'.db = r.db → r'.sessions = r.sessions → r'.opened = r.opened →
      r'.phone = r.phone → Reserved r' := by
    intro r' hdb hsessions hopened hphone
    refine reserved_same hr hdb hsessions hopened ?_ ?_
    · rw [hphone]
      exact fun _ _ _ _ => Iff.rfl
    · rw [hphone]
      exact hr.handlers.verified
  cases s with
  | phone_connects c =>
    show Reserved (if r.phone c = .absent ∧ ¬ r.draining then r.set_phone c .connected else r)
    split
    · rename_i h
      refine reserved_set_phone hr (fun hello authorization host hc => ?_) (fun _ _ _ => by simp)
        fun hello authorization hc => by simp at hc
      rw [h.1] at hc
      simp at hc
    · exact hr
  | phone_hello c hello => exact reserved_hello hr policy now c hello
  | phone_turn c => exact reserved_phone_turn hr policy now c
  | cancel_phone c => exact reserved_cancel hr now c
  | host_connects e =>
    show Reserved (if r.host e = .absent ∧ ¬ r.draining then r.set_host e .connected else r)
    split
    · exact hsame rfl rfl rfl rfl
    · exact hr
  | host_verified e host_id =>
    show Reserved (if r.host e = .connected then r.set_host e (.verified host_id) else r)
    split
    · exact hsame rfl rfl rfl rfl
    · exact hr
  | host_turn e =>
    show Reserved (r.host_turn e)
    unfold ReservationService.host_turn
    split
    · split
      · exact hsame rfl rfl rfl rfl
      · exact hsame rfl rfl rfl rfl
    · exact hsame rfl rfl rfl rfl
    · exact hr
  | close_endpoint e => exact hsame rfl rfl rfl rfl
  | close_session session_id => exact reserved_close hr now session_id
  | drain => exact hsame rfl rfl rfl rfl
  | restart => exact reserved_restart hr now
  | operator call =>
    obtain ⟨haccounts, hrows⟩ := operator_kept secrets hr.rows.accounts now call fun _ => False
    exact reserved_db hr haccounts hrows

theorem reserved_run (policy : RendezvousPolicy) (secrets : AdmissionSecrets)
    (steps : List (Seconds × ReservationService.ServiceStep)) (hr : Reserved r) :
    Reserved (run policy secrets steps r) := by
  unfold run
  induction steps generalizing r with
  | nil => exact hr
  | cons s steps ih => exact ih (reserved_step policy secrets hr s)

/-- In every run, of every host that is active: its active rows are those of its sessions
and of the opens between reserve and commit; the endpoint of an opened session was the
registered one; and no authorization has opened two. -/
theorem reservations_match_sessions (policy : RendezvousPolicy) (secrets : AdmissionSecrets)
    (steps : List (Seconds × ReservationService.ServiceStep)) :
    let r := run policy secrets steps (start .empty [] [])
    (∀ host_id, HostActive r.db host_id → ∀ session_id,
      (∃ x ∈ r.db.sessions, x.session_id = session_id ∧ x.host_id = host_id ∧ x.state = .active) ↔
        Live r session_id host_id ∨ Opens r session_id host_id) ∧
    (∀ o ∈ r.opened, o.registered = some o.session.host) ∧
    (r.opened.map fun o => o.authorization).Nodup := by
  have hr := reserved_run policy secrets steps reserved_start
  refine ⟨?_, hr.opened.registered, ?_⟩
  · intro host_id hactive session_id
    constructor
    · rintro ⟨x, hx, rfl, rfl, hstate⟩
      exact hr.rows.held x hx hstate hactive
    · intro hheld
      obtain ⟨x, hx, hid, hof, hstate⟩ := hr.rows.row session_id host_id hheld
      exact ⟨x, hx, hid, hof, hstate hactive⟩
  · refine List.Nodup.of_map (fun authorization => authorization.session_id) ?_
    have hids := hr.opened.once
    rw [List.map_map]
    rw [List.map_congr_left fun o ho => (hr.opened.ids o ho).symm] at hids
    exact hids

end ClaudeCodeBridge.Analysis.Relay
