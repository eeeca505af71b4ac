import ClaudeCodeBridge.Model.RelayService
import ClaudeCodeBridge.Analysis.RelayChannel

/-!
# What one relay session does to the others

An `Event` is something that a peer does to its own connection: a phone that disconnects,
closes, sends a frame that is not accepted, or does not take its frames in time; and the
same of the host.  A step is `undisturbed` when a session frame that the host's handler
takes up still finds its session, its checks and an open phone, and a put to a phone
does not time out.

The ladder: closing a session (`inv_pop`, `inv_close_session`) and the turns of the
handlers (`inv_host_turn`, `inv_phone_turn`) keep `Inv`, which blames every closed
session on an event of its own; so does a run (`inv_run`).
-/

set_option autoImplicit false

namespace ClaudeCodeBridge.Analysis.Relay

open Program
open Model.Relay

inductive Event where
  | host
  | session (session_id : Text)
  deriving DecidableEq

variable (queue_limit : ℕ) (encodings : Encodings)

/-- A put to this endpoint times out now. -/
def timesOut (e : PeerEndpoint) (turn : Turn) : Bool :=
  queue_limit ≤ e.queue.length && turn.timeout

/-- What the host does to itself, or to a session that it closes, in a turn. -/
def hostEvent (r : RelayService) (turn : Turn) : Option Event :=
  match r.host_task with
  | .reading =>
    match turn.hangup, r.host.incoming with
    | true, _ => some .host
    | false, [] => none
    | false, .closed :: _ => some .host
    | false, .rejected :: _ => some .host
    | false, .frame frame :: _ =>
      match frame.payload with
      | .heartbeat | .host_hello _ | .gateway_envelope _ => none
      | .close => some (.session frame.session_id)
      | _ => some .host
  | .acking _ => if timesOut queue_limit r.host turn then some .host else none
  | .greeting c _ | .forwarding c _ =>
    match r.phones c with
    | none => none
    | some phone =>
      if timesOut queue_limit phone.endpoint turn then some (.session phone.session.session_id)
      else none
  | _ => none

/-- The phone's frame is one that its established session does not accept. -/
def notAccepted (phone : PhoneConnection) (frame : RelayFrame) (turn : Turn) : Bool :=
  match frame.payload with
  | .heartbeat => false
  | .gateway_envelope envelope =>
    match RelayService.forward_checks encodings phone.session frame envelope .phone turn with
    | .error _ => true
    | .ok _ => false
  | _ => true

/-- A phone disconnects, closes, sends what is not accepted, or waits in vain. -/
def phoneEvent (r : RelayService) (phone : PhoneConnection) (turn : Turn) : Bool :=
  match phone.task with
  | .reading =>
    match turn.hangup, phone.endpoint.incoming with
    | true, _ => false
    | false, [] => false
    | false, .closed :: _ => true
    | false, .rejected :: _ => true
    | false, .frame frame :: _ => notAccepted encodings phone frame turn
  | .acking _ => timesOut queue_limit phone.endpoint turn
  | .greeting _ | .forwarding _ => timesOut queue_limit r.host turn
  | _ => false

def event (r : RelayService) : RelayService.Step → Option Event
  | .write_host sent => if sent then none else some .host
  | .write_phone c sent =>
    match r.phones c with
    | none => none
    | some phone => if sent then none else some (.session phone.session.session_id)
  | .host_turn turn => hostEvent queue_limit r turn
  | .phone_turn c turn =>
    match r.phones c with
    | none => none
    | some phone =>
      if phoneEvent queue_limit encodings r phone turn then
        some (.session phone.session.session_id)
      else none
  | _ => none

def events (r : RelayService) : List RelayService.Step → List Event
  | [] => []
  | s :: steps =>
    (event queue_limit encodings r s).toList ++
      match r.step queue_limit encodings s with
      | none => []
      | some r => events r steps

def finds (r : RelayService) (frame : RelayFrame) (turn : Turn) : Bool :=
  match (r.sessions.get frame.session_id).bind r.phones with
  | none => false
  | some phone =>
    !phone.endpoint.closed &&
      match frame.payload with
      | .host_hello host_id => host_id = phone.session.host_id
      | .gateway_envelope envelope =>
        match RelayService.forward_checks encodings phone.session frame envelope .host turn with
        | .error _ => false
        | .ok _ => true
      | _ => true

/-- The host's handler, if it takes this step, finds the session of the frame it takes up,
and room for the frame it puts. -/
def undisturbed (r : RelayService) : RelayService.Step → Bool
  | .host_turn turn =>
    match r.host_task with
    | .reading =>
      match turn.hangup, r.host.incoming with
      | false, .frame frame :: _ =>
        match frame.payload with
        | .host_hello _ | .gateway_envelope _ => finds encodings r frame turn
        | _ => true
      | _, _ => true
    | .greeting c _ | .forwarding c _ =>
      match r.phones c with
      | none => true
      | some phone => !timesOut queue_limit phone.endpoint turn
    | _ => true
  | _ => true

/-- Every step of a run is undisturbed. -/
def allUndisturbed (r : RelayService) : List RelayService.Step → Bool
  | [] => true
  | s :: steps =>
    undisturbed queue_limit encodings r s &&
      match r.step queue_limit encodings s with
      | none => true
      | some r => allUndisturbed r steps

/-- The host's handler is still in its loop. -/
def attending : HostTask → Bool
  | .reading | .acking _ | .greeting _ _ | .forwarding _ _ | .closing _ => true
  | _ => false

variable {queue_limit encodings} {past : List Event} {r r' : RelayService} {c : ConnectionId}

/-- A phone's handler is still in its loop. -/
def serving : PhoneTask → Bool
  | .greeting _ | .reading | .acking _ | .forwarding _ => true
  | _ => false

/-- The session that a phone's handler is closing. -/
def closingOf : PhoneTask → Option Closing
  | .closing closing | .closing_slow closing _ | .leaving closing => some closing
  | _ => none

def Fading (sessions : Dict Text ConnectionId) (c : ConnectionId) (phone : PhoneConnection) :
    Prop :=
  sessions.get phone.session.session_id ≠ some c ∨ phone.endpoint.closed = true ∨
    phone.session.closed = true ∨ serving phone.task = false

def Blamed (past : List Event) (r : RelayService) (c : ConnectionId) : Prop :=
  ∃ phone, r.phones c = some phone ∧ .session phone.session.session_id ∈ past

structure Inv (past : List Event) (r : RelayService) : Prop where
  host_open : r.host.closed = false
  host_attending : attending r.host_task = true
  established : ∀ session_id c, r.sessions.get session_id = some c →
    ∃ phone, r.phones c = some phone ∧ phone.session.session_id = session_id
  fading : ∀ c phone, r.phones c = some phone → Fading r.sessions c phone →
    .session phone.session.session_id ∈ past
  host_closing : ∀ closing, r.host_task = .closing closing → Blamed past r closing.session
  phone_closing : ∀ c phone closing, r.phones c = some phone →
    closingOf phone.task = some closing → Blamed past r closing.session

/-- The connections of `r` are still there, with their sessions' identities. -/
def Keeps (r r' : RelayService) : Prop :=
  ∀ c phone, r.phones c = some phone →
    ∃ phone', r'.phones c = some phone' ∧ phone'.session.session_id = phone.session.session_id

theorem keeps_refl (r : RelayService) : Keeps r r := fun _ phone hphone => ⟨phone, hphone, rfl⟩

theorem Blamed.keeps (h : Blamed past r c) (hkeeps : Keeps r r') : Blamed past r' c := by
  obtain ⟨phone, hphone, hmem⟩ := h
  obtain ⟨phone', hphone', hid⟩ := hkeeps c phone hphone
  refine ⟨phone', hphone', ?_⟩
  rw [hid]
  exact hmem

theorem Blamed.mono {past' : List Event} (h : Blamed past r c) (hsub : past ⊆ past') :
    Blamed past' r c := by
  obtain ⟨phone, hphone, hmem⟩ := h
  exact ⟨phone, hphone, hsub hmem⟩

theorem Inv.mono {past' : List Event} (h : Inv past r) (hsub : past ⊆ past') : Inv past' r where
  host_open := h.host_open
  host_attending := h.host_attending
  established := h.established
  fading := fun c phone hphone hfading => hsub (h.fading c phone hphone hfading)
  host_closing := fun closing htask => (h.host_closing closing htask).mono hsub
  phone_closing := fun c phone closing hphone htask =>
    (h.phone_closing c phone closing hphone htask).mono hsub

variable {phone phone' : PhoneConnection}

theorem Blamed.mem (h : Blamed past r c) (hphone : r.phones c = some phone) :
    .session phone.session.session_id ∈ past := by
  obtain ⟨other, hother, hmem⟩ := h
  rw [hphone, Option.some.injEq] at hother
  subst hother
  exact hmem

theorem keeps_set_phone (hphone : r.phones c = some phone)
    (hid : phone'.session.session_id = phone.session.session_id) :
    Keeps r (r.set_phone c phone') := by
  intro d other hother
  by_cases hd : d = c
  · subst hd
    rw [hphone, Option.some.injEq] at hother
    subst hother
    exact ⟨phone', Function.update_self _ _ _, hid⟩
  · refine ⟨other, ?_, rfl⟩
    rw [← hother]
    exact Function.update_of_ne hd _ _

/-- The rule for a change of one connection. -/
theorem Inv.set_phone (h : Inv past r) (hphone : r.phones c = some phone)
    (hid : phone'.session.session_id = phone.session.session_id)
    (hfading : Fading r.sessions c phone' → .session phone.session.session_id ∈ past)
    (hclosing : ∀ closing, closingOf phone'.task = some closing → Blamed past r closing.session) :
    Inv past (r.set_phone c phone') := by
  have hkeeps : Keeps r (r.set_phone c phone') := keeps_set_phone hphone hid
  have hget : ∀ d other, (r.set_phone c phone').phones d = some other →
      (d = c ∧ other = phone') ∨ (d ≠ c ∧ r.phones d = some other) := by
    intro d other hother
    by_cases hd : d = c
    · subst hd
      have hself : (r.set_phone d phone').phones d = some phone' := Function.update_self _ _ _
      rw [hself, Option.some.injEq] at hother
      exact Or.inl ⟨rfl, hother.symm⟩
    · have hother' : (r.set_phone c phone').phones d = r.phones d := Function.update_of_ne hd _ _
      rw [hother'] at hother
      exact Or.inr ⟨hd, hother⟩
  constructor
  · exact h.host_open
  · exact h.host_attending
  · intro session_id d hd
    obtain ⟨other, hother, hid'⟩ := h.established session_id d hd
    obtain ⟨other', hother', hsame⟩ := hkeeps d other hother
    exact ⟨other', hother', hsame.trans hid'⟩
  · intro d other hother hfades
    rcases hget d other hother with ⟨rfl, rfl⟩ | ⟨_, hold⟩
    · rw [hid]
      exact hfading hfades
    · exact h.fading d other hold hfades
  · intro closing htask
    exact (h.host_closing closing htask).keeps hkeeps
  · intro d other closing hother htask
    rcases hget d other hother with ⟨rfl, rfl⟩ | ⟨_, hold⟩
    · exact (hclosing closing htask).keeps hkeeps
    · exact (h.phone_closing d other closing hold htask).keeps hkeeps

theorem Inv.set_phone_same (h : Inv past r) (hphone : r.phones c = some phone)
    (hid : phone'.session.session_id = phone.session.session_id)
    (hclosed : phone'.endpoint.closed = phone.endpoint.closed)
    (hsession : phone'.session.closed = phone.session.closed)
    (htask : phone'.task = phone.task) : Inv past (r.set_phone c phone') := by
  refine h.set_phone hphone hid ?_ ?_
  · intro hfading
    refine h.fading c phone hphone ?_
    unfold Fading at hfading ⊢
    rw [hid, hclosed, hsession, htask] at hfading
    exact hfading
  · intro closing hclosing
    rw [htask] at hclosing
    exact h.phone_closing c phone closing hphone hclosing

theorem Inv.set_host_task {task : HostTask} (h : Inv past r) (hattending : attending task = true)
    (hclosing : ∀ closing, task = .closing closing → Blamed past r closing.session) :
    Inv past (r.set_host_task task) where
  host_open := h.host_open
  host_attending := hattending
  established := h.established
  fading := h.fading
  host_closing := hclosing
  phone_closing := h.phone_closing

theorem Inv.set_host {host : PeerEndpoint} {heard sent : List RelayFrame} (h : Inv past r)
    (hclosed : host.closed = false) :
    Inv past { r with host := host, heard := heard, sent := sent } where
  host_open := hclosed
  host_attending := h.host_attending
  established := h.established
  fading := h.fading
  host_closing := h.host_closing
  phone_closing := h.phone_closing

theorem keeps_map_phone (f : PhoneConnection → PhoneConnection)
    (hid : ∀ phone, (f phone).session.session_id = phone.session.session_id) :
    Keeps r (r.map_phone c f) := by
  unfold RelayService.map_phone
  split
  · exact keeps_refl r
  · rename_i phone hphone
    exact keeps_set_phone hphone (hid phone)

variable {task : PhoneTask}

theorem Inv.set_phone_task (h : Inv past r) (hserving : serving task = false → Blamed past r c)
    (hclosing : ∀ closing, closingOf task = some closing → Blamed past r closing.session) :
    Inv past (r.set_phone_task c task) := by
  unfold RelayService.set_phone_task RelayService.map_phone
  split
  · exact h
  · rename_i phone hphone
    refine h.set_phone hphone rfl ?_ hclosing
    intro hfading
    rcases hfading with hget | hclosed | hsession | htask
    · exact h.fading c phone hphone (Or.inl hget)
    · exact h.fading c phone hphone (Or.inr (Or.inl hclosed))
    · exact h.fading c phone hphone (Or.inr (Or.inr (Or.inl hsession)))
    · exact (hserving htask).mem hphone

theorem Inv.close_endpoint (h : Inv past r) (hblamed : Blamed past r c) :
    Inv past (r.map_phone c fun phone =>
      { phone with endpoint := phone.endpoint.close queue_limit }) := by
  unfold RelayService.map_phone
  split
  · exact h
  · rename_i phone hphone
    exact h.set_phone hphone rfl (fun _ => hblamed.mem hphone)
      fun closing => h.phone_closing c phone closing hphone

theorem keeps_pop (session_id : Text) : Keeps r (r.pop_session session_id).2 := by
  unfold RelayService.pop_session
  split
  · exact keeps_refl r
  · rename_i d hget
    simp only
    split
    · exact keeps_refl r
    · rename_i phone hphone
      split
      · exact keeps_refl r
      · exact keeps_set_phone hphone rfl

theorem inv_pop {session_id : Text} (h : Inv past r) (hmem : .session session_id ∈ past) :
    Inv past (r.pop_session session_id).2 ∧
      ∀ closing, (r.pop_session session_id).1 = some closing →
        Blamed past (r.pop_session session_id).2 closing.session := by
  have hpopped : ∀ ids : List Text, Inv past
      { r with sessions := r.sessions.pop session_id, sessions_by_host := ids } := by
    intro ids
    constructor
    · exact h.host_open
    · exact h.host_attending
    · intro other d hd
      by_cases hother : other = session_id
      · subst hother
        rw [Dict.get_pop_self] at hd
        exact absurd hd (by simp)
      · rw [Dict.get_pop_of_ne _ hother] at hd
        exact h.established other d hd
    · intro d phone hphone hfading
      by_cases hid : phone.session.session_id = session_id
      · rw [hid]
        exact hmem
      · refine h.fading d phone hphone ?_
        unfold Fading at hfading ⊢
        rw [Dict.get_pop_of_ne _ hid] at hfading
        exact hfading
    · exact h.host_closing
    · exact h.phone_closing
  unfold RelayService.pop_session
  split
  · exact ⟨h, fun closing hclosing => absurd hclosing (by simp)⟩
  · rename_i d hget
    obtain ⟨phone, hphone, hid⟩ := h.established session_id d hget
    simp only [hphone]
    split
    · exact ⟨hpopped r.sessions_by_host, fun closing hclosing => absurd hclosing (by simp)⟩
    · refine ⟨(hpopped (r.sessions_by_host.filter (· ≠ session_id))).set_phone hphone rfl
        (fun _ => by rw [hid]; exact hmem) (fun closing => h.phone_closing d phone closing hphone),
        ?_⟩
      intro closing hclosing
      cases hclosing
      refine ⟨_, Function.update_self _ _ _, ?_⟩
      rw [show ({ phone.session with closed := true } : RelaySessionState).session_id
        = session_id from hid]
      exact hmem

variable {e : PeerEndpoint} {frame : RelayFrame}

theorem put_closed {e' : PeerEndpoint} {timeout : Bool}
    (h : e.put queue_limit frame timeout = some (.ok e')) : e'.closed = e.closed := by
  unfold PeerEndpoint.put at h
  split at h
  · rw [Option.some.injEq, Except.ok.injEq] at h
    rw [← h]
  · split at h <;> simp at h

theorem put_error {turn : Turn} {error : MobileRelayError}
    (h : e.put queue_limit frame turn.timeout = some (.error error)) :
    timesOut queue_limit e turn = true := by
  unfold PeerEndpoint.put at h
  split at h
  · simp at h
  · rename_i hroom
    split at h
    · rename_i htimeout
      simp only [timesOut, Bool.and_eq_true, decide_eq_true_eq]
      exact ⟨by omega, htimeout⟩
    · simp at h

/-- One close frame, put or missed, closes nothing. -/
theorem inv_put_close {closing closing' : Closing} {turn : Turn} (h : Inv past r)
    (hput : r.put_close queue_limit closing turn = some (closing', r')) :
    Inv past r' ∧ Keeps r r' ∧ closing'.session = closing.session := by
  have hrefl : Keeps r r := fun d phone hphone => ⟨phone, hphone, rfl⟩
  have hmissed : ∀ {c : Closing}, some (c, r) = some (closing', r') → c.session = closing.session →
      Inv past r' ∧ Keeps r r' ∧ closing'.session = closing.session := by
    intro c hput hc
    cases hput
    exact ⟨h, hrefl, hc⟩
  unfold RelayService.put_close at hput
  split at hput
  · simp at hput
  · rename_i phone hphone
    simp only at hput
    split at hput
    · split at hput
      · simp at hput
      · split at hput
        · exact hmissed hput rfl
        · split at hput
          · simp at hput
          · exact hmissed hput rfl
          · rename_i host hhost
            rw [Option.some.injEq, Prod.mk.injEq] at hput
            obtain ⟨rfl, rfl⟩ := hput
            exact ⟨h.set_host ((put_closed hhost).trans h.host_open), hrefl, rfl⟩
    · split at hput
      · simp at hput
      · split at hput
        · exact hmissed hput rfl
        · split at hput
          · simp at hput
          · exact hmissed hput rfl
          · rename_i endpoint hendpoint
            rw [Option.some.injEq, Prod.mk.injEq] at hput
            obtain ⟨rfl, rfl⟩ := hput
            exact ⟨h.set_phone_same hphone rfl (put_closed hendpoint) rfl rfl,
              keeps_set_phone hphone rfl, rfl⟩

theorem inv_close_session {closing : Closing} {next : Option Closing} {turn : Turn}
    (h : Inv past r) (hblamed : Blamed past r closing.session)
    (hclose : r.close_session queue_limit closing turn = some (next, r')) :
    Inv past r' ∧ Keeps r r' ∧ ∀ closing', next = some closing' →
      Blamed past r' closing'.session := by
  unfold RelayService.close_session at hclose
  split at hclose
  · split at hclose
    · simp at hclose
    · rename_i closing' s hput
      rw [Option.some.injEq, Prod.mk.injEq] at hclose
      obtain ⟨rfl, rfl⟩ := hclose
      obtain ⟨hinv, hkeeps, hsession⟩ := inv_put_close h hput
      refine ⟨hinv, hkeeps, ?_⟩
      intro other hother
      rw [Option.some.injEq] at hother
      rw [← hother, hsession]
      exact hblamed.keeps hkeeps
  · rw [Option.some.injEq, Prod.mk.injEq] at hclose
    obtain ⟨rfl, rfl⟩ := hclose
    exact ⟨h.close_endpoint hblamed, keeps_map_phone _ fun _ => rfl,
      fun closing' hclosing' => absurd hclosing' (by simp)⟩

theorem inv_leave {session_id : Text} (h : Inv past r) (hmem : .session session_id ∈ past)
    (hblamed : Blamed past r c) : Inv past (r.leave queue_limit c session_id) := by
  have hpop := inv_pop h hmem
  have hkeeps := keeps_pop (r := r) session_id
  unfold RelayService.leave
  split
  · rename_i s hs
    rw [hs] at hpop hkeeps
    refine (hpop.1.close_endpoint (hblamed.keeps hkeeps)).set_phone_task
      (fun _ => (hblamed.keeps hkeeps).keeps (keeps_map_phone _ fun _ => rfl)) ?_
    exact fun closing hclosing => absurd hclosing (by simp [closingOf])
  · rename_i closing s hs
    rw [hs] at hpop hkeeps
    refine hpop.1.set_phone_task (fun _ => hblamed.keeps hkeeps) ?_
    intro closing' hclosing
    simp only [closingOf, Option.some.injEq] at hclosing
    rw [← hclosing]
    exact hpop.2 closing rfl

/-- A task in the loop that closes nothing. -/
def idle : HostTask → Bool
  | .reading | .acking _ | .greeting _ _ | .forwarding _ _ => true
  | _ => false

section

variable (h : Inv past r)

include h

theorem Inv.set_idle {task : HostTask} (hidle : idle task = true) :
    Inv past (r.set_host_task task) := by
  refine h.set_host_task ?_ ?_
  · cases task <;> first | rfl | simp [idle] at hidle
  · intro closing htask
    rw [htask] at hidle
    simp [idle] at hidle

omit h in
theorem found_of_finds {turn : Turn} (hfinds : finds encodings r frame turn = true) :
    ∃ c phone, r.sessions.get frame.session_id = some c ∧ r.phones c = some phone := by
  unfold finds at hfinds
  split at hfinds
  · cases hfinds
  · rename_i phone hfound
    obtain ⟨c, hget, hphone⟩ := Option.bind_eq_some_iff.mp hfound
    exact ⟨c, phone, hget, hphone⟩

theorem inv_host_reader {message : Message} {turn : Turn} (hmessage : match message with
      | .closed | .rejected => False
      | .frame frame =>
        match frame.payload with
        | .heartbeat => True
        | .close => .session frame.session_id ∈ past
        | .host_hello _ | .gateway_envelope _ => finds encodings r frame turn = true
        | _ => False) :
    Inv past (r.host_reader encodings message turn) := by
  cases message with
  | closed | rejected => exact hmessage.elim
  | frame frame =>
    unfold RelayService.host_reader
    cases hpayload : frame.payload with
    | heartbeat =>
      simp only [hpayload, h.host_open, Bool.false_eq_true, if_false]
      exact h.set_idle rfl
    | close =>
      simp only [hpayload] at hmessage ⊢
      have hpop := inv_pop h hmessage
      split
      · rename_i s hs
        rw [hs] at hpop
        exact hpop.1.set_idle rfl
      · rename_i closing s hs
        rw [hs] at hpop
        refine hpop.1.set_host_task rfl ?_
        intro closing' hclosing
        rw [HostTask.closing.injEq] at hclosing
        rw [← hclosing]
        exact hpop.2 closing rfl
    | host_hello host_id =>
      simp only [hpayload] at hmessage
      obtain ⟨c, phone, hget, hphone⟩ := found_of_finds hmessage
      simp only [finds, hpayload, hget, hphone, Option.bind_some, Bool.and_eq_true,
        Bool.not_eq_true', decide_eq_true_eq] at hmessage
      simp only [hpayload, hget, hphone, hmessage.1, hmessage.2, ne_eq, not_true_eq_false, if_false,
        Bool.false_eq_true]
      exact h.set_idle rfl
    | gateway_envelope envelope =>
      simp only [hpayload] at hmessage
      obtain ⟨c, phone, hget, hphone⟩ := found_of_finds hmessage
      simp only [finds, hpayload, hget, hphone, Option.bind_some, Bool.and_eq_true,
        Bool.not_eq_true'] at hmessage
      simp only [hpayload, hget, hphone, hmessage.1]
      cases hchecks : RelayService.forward_checks encodings phone.session frame envelope
        .host turn with
      | error e => simp [hchecks] at hmessage
      | ok envelope' =>
        simp only [Bool.false_eq_true, if_false]
        refine Inv.set_idle ?_ rfl
        exact h.set_phone_same hphone rfl rfl rfl rfl
    | _ => simp [hpayload] at hmessage

theorem inv_host_turn {turn : Turn} (hturn : r.host_turn queue_limit encodings turn = some r')
    (hhost : hostEvent queue_limit r turn ≠ some .host)
    (hundisturbed : undisturbed queue_limit encodings r (.host_turn turn) = true) :
    Inv (past ++ (hostEvent queue_limit r turn).toList) r' := by
  have hinv : Inv (past ++ (hostEvent queue_limit r turn).toList) r :=
    h.mono (List.subset_append_left _ _)
  have hattending := h.host_attending
  unfold RelayService.host_turn at hturn
  unfold undisturbed at hundisturbed
  cases htask : r.host_task with
  | reading =>
    simp only [htask] at hturn hundisturbed
    cases hhangup : turn.hangup with
    | true => exact absurd (by simp [hostEvent, htask, hhangup]) hhost
    | false =>
      cases hincoming : r.host.incoming with
      | nil => simp [hhangup, hincoming] at hturn
      | cons message rest =>
        simp only [hhangup, hincoming, Bool.false_eq_true, if_false, Option.some.injEq]
          at hturn hundisturbed
        subst hturn
        have hread : Inv (past ++ (hostEvent queue_limit r turn).toList)
            { r with host := { r.host with incoming := rest } } := hinv.set_host h.host_open
        rw [htask] at hread
        refine inv_host_reader hread ?_
        cases message with
        | closed | rejected => exact hhost (by simp [hostEvent, htask, hhangup, hincoming])
        | frame frame =>
          cases hpayload : frame.payload with
          | heartbeat => simp only [hpayload]
          | close => simp [hostEvent, htask, hhangup, hincoming, hpayload]
          | host_hello host_id | gateway_envelope envelope =>
            simp only [hpayload] at hundisturbed ⊢
            exact hundisturbed
          | _ => exact absurd (by simp [hostEvent, htask, hhangup, hincoming, hpayload]) hhost
  | acking frame =>
    simp only [htask] at hturn
    split at hturn
    · simp at hturn
    · rename_i e he
      have htimeout := put_error he
      unfold hostEvent at hhost
      simp [htask, htimeout] at hhost
    · rename_i host hput
      cases hturn
      exact (hinv.set_host ((put_closed hput).trans h.host_open)).set_idle rfl
  | greeting c frame | forwarding c frame =>
    simp only [htask] at hturn hundisturbed
    split at hturn
    · simp at hturn
    · rename_i phone hphone
      simp only [hphone, Bool.not_eq_true'] at hundisturbed
      split at hturn
      · simp at hturn
      · rename_i e he
        rw [put_error he] at hundisturbed
        exact absurd hundisturbed (by simp)
      · rename_i endpoint hput
        cases hturn
        refine Inv.set_idle ?_ rfl
        exact hinv.set_phone_same hphone rfl (put_closed hput) rfl rfl
  | closing closing =>
    simp only [htask] at hturn
    have hblamed := hinv.host_closing closing htask
    split at hturn
    · simp at hturn
    · rename_i s hclose
      cases hturn
      exact (inv_close_session hinv hblamed hclose).1.set_idle rfl
    · rename_i closing' s hclose
      cases hturn
      obtain ⟨hinv', _, hnext⟩ := inv_close_session hinv hblamed hclose
      refine hinv'.set_host_task rfl ?_
      intro other hother
      rw [HostTask.closing.injEq] at hother
      rw [← hother]
      exact hnext closing' rfl
  | closing_slow closing e => simp [htask, attending] at hattending
  | raised e | disconnecting ids closings | ended => simp [htask, attending] at hattending

theorem Inv.set_serving (hserving : serving task = true) : Inv past (r.set_phone_task c task) := by
  refine h.set_phone_task ?_ ?_
  · intro hnot
    rw [hserving] at hnot
    exact absurd hnot (by simp)
  · intro closing hclosing
    cases task <;> simp_all [serving, closingOf]

theorem Inv.set_raised {error : MobileRelayError} (hblamed : Blamed past r c) :
    Inv past (r.set_phone_task c (.raised error)) :=
  h.set_phone_task (fun _ => hblamed) fun closing hclosing => absurd hclosing (by simp [closingOf])

theorem inv_phone_reader {message : Message} {turn : Turn}
    (hphone : r.phones c = some phone) (hmessage : match message with
      | .closed | .rejected => .session phone.session.session_id ∈ past
      | .frame frame => notAccepted encodings phone frame turn = true →
        .session phone.session.session_id ∈ past) :
    Inv past (r.phone_reader queue_limit encodings c phone message turn) := by
  have hblame : .session phone.session.session_id ∈ past → Blamed past r c :=
    fun hmem => ⟨phone, hphone, hmem⟩
  cases message with
  | closed | rejected => exact h.set_raised (hblame hmessage)
  | frame frame =>
    unfold RelayService.phone_reader
    simp only [notAccepted] at hmessage
    have hunknown : r.sessions.get phone.session.session_id ≠ some c →
        .session phone.session.session_id ∈ past :=
      fun hget => h.fading c phone hphone (Or.inl hget)
    cases hpayload : frame.payload with
    | heartbeat =>
      simp only [hpayload]
      split
      · rename_i hclosed
        exact h.set_raised (hblame (h.fading c phone hphone (Or.inr (Or.inl hclosed))))
      · exact h.set_serving rfl
    | close =>
      simp only [hpayload, true_implies] at hmessage ⊢
      have hpop := inv_pop h hmessage
      have hkeeps := keeps_pop (r := r) phone.session.session_id
      split
      · rename_i s hs
        rw [hs] at hpop hkeeps
        exact inv_leave hpop.1 hmessage ((hblame hmessage).keeps hkeeps)
      · rename_i closing s hs
        rw [hs] at hpop hkeeps
        refine hpop.1.set_phone_task (fun _ => (hblame hmessage).keeps hkeeps) ?_
        intro closing' hclosing
        simp only [closingOf, Option.some.injEq] at hclosing
        rw [← hclosing]
        exact hpop.2 closing rfl
    | gateway_envelope envelope =>
      simp only [hpayload] at hmessage ⊢
      split
      · rename_i hget
        exact h.set_raised (hblame (hunknown hget))
      · cases hchecks : RelayService.forward_checks encodings phone.session frame envelope
          .phone turn with
        | error e =>
          simp only [hchecks, true_implies] at hmessage ⊢
          exact h.set_raised (hblame hmessage)
        | ok envelope' =>
          simp only
          split
          · rename_i hclosed
            exact absurd hclosed (by simp [RelayService.set_phone, h.host_open])
          · refine Inv.set_serving ?_ rfl
            exact h.set_phone_same hphone rfl rfl rfl rfl
    | _ =>
      simp only [hpayload, true_implies] at hmessage ⊢
      split
      · exact h.set_raised (hblame hmessage)
      · exact h.set_raised (hblame hmessage)

theorem Inv.set_closing {closing : Closing}
    (hblamed : Blamed past r c) (hclosing : closingOf task = some closing)
    (hsession : Blamed past r closing.session) : Inv past (r.set_phone_task c task) := by
  refine h.set_phone_task (fun _ => hblamed) ?_
  intro other hother
  rw [hclosing, Option.some.injEq] at hother
  rw [← hother]
  exact hsession

theorem inv_phone_turn {turn : Turn} (hphone : r.phones c = some phone)
    (hturn : r.phone_turn queue_limit encodings c turn = some r')
    (hevent : phoneEvent queue_limit encodings r phone turn = true →
      .session phone.session.session_id ∈ past) : Inv past r' := by
  have hblame : .session phone.session.session_id ∈ past → Blamed past r c :=
    fun hmem => ⟨phone, hphone, hmem⟩
  have hleft : serving phone.task = false → .session phone.session.session_id ∈ past :=
    fun htask => h.fading c phone hphone (Or.inr (Or.inr (Or.inr htask)))
  unfold RelayService.phone_turn at hturn
  simp only [hphone] at hturn
  cases htask : phone.task with
  | greeting frame =>
    simp only [htask] at hturn
    split at hturn
    · simp at hturn
    · rename_i e he
      cases hturn
      refine h.set_raised (hblame (hevent ?_))
      simp only [phoneEvent, htask]
      exact put_error he
    · rename_i host hput
      cases hturn
      refine Inv.set_serving ?_ rfl
      exact h.set_host ((put_closed hput).trans h.host_open)
  | reading =>
    simp only [htask] at hturn
    split at hturn
    · split at hturn
      · rename_i hclosed
        cases hturn
        exact inv_phone_reader h hphone (h.fading c phone hphone (Or.inr (Or.inl hclosed)))
      · simp at hturn
    · rename_i hhangup
      rw [Bool.not_eq_true] at hhangup
      cases hincoming : phone.endpoint.incoming with
      | nil => simp [hincoming] at hturn
      | cons message rest =>
        simp only [hincoming] at hturn
        cases hturn
        refine inv_phone_reader ?_ (Function.update_self _ _ _) ?_
        · refine h.set_phone_same hphone rfl rfl rfl htask.symm
        · simp only [phoneEvent, htask, hhangup, hincoming] at hevent
          cases message with
          | closed | rejected => exact hevent rfl
          | frame frame => exact hevent
  | acking frame =>
    simp only [htask] at hturn
    split at hturn
    · simp at hturn
    · rename_i e he
      cases hturn
      refine h.set_raised (hblame (hevent ?_))
      simp only [phoneEvent, htask]
      exact put_error he
    · rename_i endpoint hput
      cases hturn
      refine h.set_phone hphone rfl ?_ fun closing hclosing =>
        absurd hclosing (by simp [closingOf])
      intro hfading
      rcases hfading with hget | hclosed | hsession | hserving
      · exact h.fading c phone hphone (Or.inl hget)
      · exact h.fading c phone hphone (Or.inr (Or.inl ((put_closed hput).symm.trans hclosed)))
      · exact h.fading c phone hphone (Or.inr (Or.inr (Or.inl hsession)))
      · exact absurd hserving (by simp [serving])
  | forwarding frame =>
    simp only [htask] at hturn
    split at hturn
    · simp at hturn
    · rename_i e he
      have hmem := hevent (by simp only [phoneEvent, htask]; exact put_error he)
      have hpop := inv_pop h hmem
      have hblamed := (hblame hmem).keeps (keeps_pop phone.session.session_id)
      split at hturn
      · rename_i s hs
        rw [hs] at hpop hblamed
        cases hturn
        exact hpop.1.set_raised hblamed
      · rename_i closing s hs
        rw [hs] at hpop hblamed
        cases hturn
        exact hpop.1.set_closing hblamed rfl (hpop.2 closing rfl)
    · rename_i host hput
      cases hturn
      refine Inv.set_serving ?_ rfl
      exact h.set_host ((put_closed hput).trans h.host_open)
  | closing closing | closing_slow closing e | leaving closing =>
    have hmem := hleft (by rw [htask]; rfl)
    have hsession := h.phone_closing c phone closing hphone (by rw [htask]; rfl)
    simp only [htask] at hturn
    split at hturn
    · simp at hturn
    · rename_i s hclose
      cases hturn
      obtain ⟨hinv, hkeeps, _⟩ := inv_close_session h hsession hclose
      have hblamed := (hblame hmem).keeps hkeeps
      first
        | exact inv_leave hinv hmem hblamed
        | exact hinv.set_raised hblamed
        | exact (hinv.close_endpoint hblamed).set_phone_task
            (fun _ => hblamed.keeps (keeps_map_phone _ fun _ => rfl))
            fun closing hclosing => absurd hclosing (by simp [closingOf])
    · rename_i closing' s hclose
      cases hturn
      obtain ⟨hinv, hkeeps, hnext⟩ := inv_close_session h hsession hclose
      exact hinv.set_closing ((hblame hmem).keeps hkeeps) rfl (hnext closing' rfl)
  | raised e =>
    simp only [htask] at hturn
    cases hturn
    have hmem := hleft (by rw [htask]; rfl)
    refine inv_leave (h.close_endpoint (hblame hmem)) hmem ?_
    exact (hblame hmem).keeps (keeps_map_phone _ fun _ => rfl)
  | ended => simp [htask] at hturn

end

theorem write_closed {e' : PeerEndpoint} (h : e.write queue_limit true = some e') :
    e'.closed = e.closed := by
  unfold PeerEndpoint.write at h
  split at h
  · rw [if_pos rfl, Option.some.injEq] at h
    rw [← h]
  · simp at h

theorem inv_open (h : Inv past r)
    (hopen : r.open_phone_session c frame = some r') : Inv past r' := by
  unfold RelayService.open_phone_session at hopen
  cases hfresh : r.phones c with
  | some phone =>
    rw [hfresh] at hopen
    cases hpayload : frame.payload <;> simp [hpayload] at hopen
  | none =>
    rw [hfresh] at hopen
    cases hpayload : frame.payload with
    | client_hello host_id =>
      simp only [hpayload] at hopen
      split at hopen
      · rename_i hfree
        rw [Option.some.injEq] at hopen
        have hother : ∀ d phone, r.phones d = some phone → d ≠ c := by
          intro d phone hphone hd
          rw [hd, hfresh] at hphone
          simp at hphone
        have hold : ∀ d phone, r.phones d = some phone → r'.phones d = some phone := by
          intro d phone hphone
          rw [← hopen, ← hphone]
          exact Function.update_of_ne (hother d phone hphone) _ _
        have hkeeps : Keeps r r' := fun d phone hphone => ⟨phone, hold d phone hphone, rfl⟩
        have hsessions : r'.sessions = r.sessions.set frame.session_id c := by rw [← hopen]; rfl
        have hnew : ∀ d phone, r'.phones d = some phone →
            (d = c ∧ phone.endpoint.closed = false ∧ phone.session.closed = false ∧
              phone.task = .greeting frame ∧ phone.session.session_id = frame.session_id) ∨
            r.phones d = some phone := by
          intro d phone hphone
          by_cases hd : d = c
          · subst hd
            rw [← hopen] at hphone
            have hself := (Function.update_self d _ r.phones).symm.trans hphone
            cases hself
            exact Or.inl ⟨rfl, rfl, rfl, rfl, rfl⟩
          · right
            rw [← hphone, ← hopen]
            exact (Function.update_of_ne hd _ _).symm
        constructor
        · rw [← hopen]
          exact h.host_open
        · rw [← hopen]
          exact h.host_attending
        · intro session_id d hd
          rw [hsessions] at hd
          by_cases hid : session_id = frame.session_id
          · rw [hid, Dict.get_set_self, Option.some.injEq] at hd
            rw [← hd, ← hopen, hid]
            exact ⟨_, Function.update_self _ _ _, rfl⟩
          · rw [Dict.get_set_of_ne _ hid] at hd
            obtain ⟨phone, hphone, hsame⟩ := h.established session_id d hd
            exact ⟨phone, hold d phone hphone, hsame⟩
        · intro d phone hphone hfading
          unfold Fading at hfading
          rw [hsessions] at hfading
          rcases hnew d phone hphone with ⟨rfl, hclosed, hsession, htask, hid⟩ | hphone'
          · rw [hid, Dict.get_set_self, hclosed, hsession, htask] at hfading
            simp [serving] at hfading
          · refine h.fading d phone hphone' ?_
            by_cases hid : phone.session.session_id = frame.session_id
            · left
              rw [hid, hfree.2.2]
              simp
            · rw [Dict.get_set_of_ne _ hid] at hfading
              exact hfading
        · intro closing htask
          rw [← hopen] at htask
          exact (h.host_closing closing htask).keeps hkeeps
        · intro d phone closing hphone hclosing
          rcases hnew d phone hphone with ⟨rfl, _, _, htask, _⟩ | hphone'
          · rw [htask] at hclosing
            simp [closingOf] at hclosing
          · exact (h.phone_closing d phone closing hphone' hclosing).keeps hkeeps
      · simp at hopen
    | _ => simp [hpayload] at hopen

variable {s : RelayService.Step}

theorem inv_step (h : Inv past r) (hstep : r.step queue_limit encodings s = some r')
    (hhost : event queue_limit encodings r s ≠ some .host)
    (hundisturbed : undisturbed queue_limit encodings r s = true) :
    Inv (past ++ (event queue_limit encodings r s).toList) r' := by
  have hinv : Inv (past ++ (event queue_limit encodings r s).toList) r :=
    h.mono (List.subset_append_left _ _)
  cases s with
  | open_phone c frame => exact inv_open hinv hstep
  | phone_sends c message =>
    simp only [RelayService.step] at hstep
    split at hstep
    · simp at hstep
    · rename_i phone hphone
      cases hstep
      exact hinv.set_phone_same hphone rfl rfl rfl rfl
  | host_sends message =>
    simp only [RelayService.step] at hstep
    cases hstep
    exact hinv.set_host h.host_open
  | host_hears =>
    simp only [RelayService.step] at hstep
    split at hstep
    · simp at hstep
    · cases hstep
      exact hinv.set_host h.host_open
  | write_host sent =>
    cases sent with
    | false => exact absurd rfl hhost
    | true =>
      simp only [RelayService.step] at hstep
      split at hstep
      · simp at hstep
      · rename_i host hwrite
        cases hstep
        exact hinv.set_host ((write_closed hwrite).trans h.host_open)
  | write_phone c sent =>
    simp only [RelayService.step] at hstep
    split at hstep
    · simp at hstep
    · rename_i phone hphone
      split at hstep
      · simp at hstep
      · rename_i endpoint hwrite
        cases hstep
        cases sent with
        | true => exact hinv.set_phone_same hphone rfl (write_closed hwrite) rfl rfl
        | false =>
          refine hinv.set_phone hphone rfl ?_ fun closing => hinv.phone_closing c phone closing hphone
          intro _
          simp [event, hphone]
  | host_turn turn => exact inv_host_turn h hstep hhost hundisturbed
  | phone_turn c turn =>
    simp only [RelayService.step] at hstep
    cases hphone : r.phones c with
    | none => simp [RelayService.phone_turn, hphone] at hstep
    | some phone =>
      refine inv_phone_turn hinv hphone hstep ?_
      intro hevent
      simp [event, hphone, hevent]

theorem inv_start : Inv [] RelayService.start where
  host_open := rfl
  host_attending := rfl
  established := fun _ _ h => absurd h (by simp [RelayService.start, Dict.get_empty])
  fading := fun _ _ h => absurd h (by simp [RelayService.start])
  host_closing := fun _ h => absurd h (by simp [RelayService.start])
  phone_closing := fun _ _ _ h => absurd h (by simp [RelayService.start])

theorem inv_run (steps : List RelayService.Step) (h : Inv past r)
    (hrun : r.run queue_limit encodings steps = some r')
    (hhost : .host ∉ events queue_limit encodings r steps)
    (hundisturbed : allUndisturbed queue_limit encodings r steps = true) :
    Inv (past ++ events queue_limit encodings r steps) r' := by
  induction steps generalizing r past with
  | nil =>
    simp only [RelayService.run] at hrun
    cases hrun
    simpa [events] using h
  | cons s steps ih =>
    simp only [RelayService.run] at hrun
    simp only [events] at hhost ⊢
    simp only [allUndisturbed, Bool.and_eq_true] at hundisturbed
    cases hstep : r.step queue_limit encodings s with
    | none => simp [hstep] at hrun
    | some next =>
      simp only [hstep] at hrun hhost hundisturbed ⊢
      rw [List.mem_append, not_or] at hhost
      have hevent : event queue_limit encodings r s ≠ some .host := by
        intro heq
        exact hhost.1 (by simp [heq])
      rw [← List.append_assoc]
      exact ih (inv_step h hstep hevent hundisturbed.1) hrun hhost.2 hundisturbed.2

theorem map_phone_host_task (f : PhoneConnection → PhoneConnection) :
    (r.map_phone c f).host_task = r.host_task := by
  unfold RelayService.map_phone
  split <;> rfl

theorem pop_session_host_task (session_id : Text) :
    (r.pop_session session_id).2.host_task = r.host_task := by
  unfold RelayService.pop_session
  split
  · rfl
  · simp only
    split
    · rfl
    · split <;> rfl

theorem close_session_host_task {closing : Closing} {next : Option Closing} {turn : Turn}
    (h : r.close_session queue_limit closing turn = some (next, r')) :
    r'.host_task = r.host_task := by
  unfold RelayService.close_session RelayService.put_close at h
  split at h
  · split at h
    · simp at h
    · rename_i hput
      rw [Option.some.injEq, Prod.mk.injEq] at h
      rw [← h.2]
      grind [RelayService.set_phone]
  · rw [Option.some.injEq, Prod.mk.injEq] at h
    rw [← h.2]
    exact map_phone_host_task _

theorem leave_host_task (session_id : Text) :
    (r.leave queue_limit c session_id).host_task = r.host_task := by
  have hpop := pop_session_host_task (r := r) session_id
  unfold RelayService.leave RelayService.set_phone_task
  split
  · rename_i s hs
    rw [hs] at hpop
    rw [map_phone_host_task, map_phone_host_task, hpop]
  · rename_i closing s hs
    rw [hs] at hpop
    rw [map_phone_host_task, hpop]

theorem set_phone_task_host_task (task : PhoneTask) :
    (r.set_phone_task c task).host_task = r.host_task := map_phone_host_task _

theorem phone_reader_host_task (phone : PhoneConnection) (message : Message) (turn : Turn) :
    (r.phone_reader queue_limit encodings c phone message turn).host_task = r.host_task := by
  have hpop := pop_session_host_task (r := r) phone.session.session_id
  unfold RelayService.phone_reader
  split
  · exact set_phone_task_host_task _
  · exact set_phone_task_host_task _
  · split
    · split <;> exact set_phone_task_host_task _
    · split
      · rename_i s hs
        rw [hs] at hpop
        exact (leave_host_task _).trans hpop
      · rename_i closing s hs
        rw [hs] at hpop
        exact (set_phone_task_host_task _).trans hpop
    · split
      · exact set_phone_task_host_task _
      · split
        · split
          · exact set_phone_task_host_task _
          · simp only
            split <;> exact set_phone_task_host_task _
        · exact set_phone_task_host_task _

theorem phone_turn_host_task {turn : Turn}
    (h : r.phone_turn queue_limit encodings c turn = some r') : r'.host_task = r.host_task := by
  unfold RelayService.phone_turn at h
  cases hphone : r.phones c with
  | none => simp [hphone] at h
  | some phone =>
    have hpop := pop_session_host_task (r := r) phone.session.session_id
    simp only [hphone] at h
    cases htask : phone.task with
    | greeting frame | acking frame =>
      simp only [htask] at h
      split at h
      · simp at h
      · cases h
        exact set_phone_task_host_task _
      · cases h
        first
          | exact set_phone_task_host_task _
          | rfl
    | reading =>
      simp only [htask] at h
      split at h
      · split at h
        · cases h
          exact phone_reader_host_task _ _ _
        · simp at h
      · split at h
        · simp at h
        · cases h
          exact phone_reader_host_task _ _ _
    | forwarding frame =>
      simp only [htask] at h
      split at h
      · simp at h
      · split at h
        · rename_i s hs
          rw [hs] at hpop
          cases h
          exact (set_phone_task_host_task _).trans hpop
        · rename_i closing s hs
          rw [hs] at hpop
          cases h
          exact (set_phone_task_host_task _).trans hpop
      · cases h
        exact set_phone_task_host_task _
    | closing closing | closing_slow closing e | leaving closing =>
      simp only [htask] at h
      split at h
      · simp at h
      · rename_i s hclose
        have hsame := close_session_host_task hclose
        cases h
        first
          | exact (leave_host_task _).trans hsame
          | exact (set_phone_task_host_task _).trans hsame
          | exact (set_phone_task_host_task _).trans ((map_phone_host_task _).trans hsame)
      · rename_i closing' s hclose
        cases h
        exact (set_phone_task_host_task _).trans (close_session_host_task hclose)
    | raised e =>
      simp only [htask, Option.some.injEq] at h
      rw [← h]
      exact (leave_host_task _).trans (map_phone_host_task _)
    | ended => simp [htask] at h

/-- Only the host's handler moves the host's handler. -/
theorem step_host_task (hother : ∀ turn, s ≠ .host_turn turn)
    (hstep : r.step queue_limit encodings s = some r') : r'.host_task = r.host_task := by
  cases s with
  | host_turn turn => exact absurd rfl (hother turn)
  | phone_turn c turn => exact phone_turn_host_task hstep
  | open_phone c frame =>
    simp only [RelayService.step, RelayService.open_phone_session] at hstep
    split at hstep
    · split at hstep
      · cases hstep
        rfl
      · simp at hstep
    · simp at hstep
  | host_sends message =>
    simp only [RelayService.step, Option.some.injEq] at hstep
    rw [← hstep]
  | phone_sends c message | host_hears | write_host sent =>
    simp only [RelayService.step] at hstep
    split at hstep
    · simp at hstep
    · cases hstep
      rfl
  | write_phone c sent =>
    simp only [RelayService.step] at hstep
    split at hstep
    · simp at hstep
    · split at hstep
      · simp at hstep
      · cases hstep
        rfl

/-- A handler that has left its loop does not return to it. -/
theorem attending_step (h : attending r.host_task = false)
    (hstep : r.step queue_limit encodings s = some r') : attending r'.host_task = false := by
  by_cases hturn : ∃ turn, s = .host_turn turn
  · obtain ⟨turn, rfl⟩ := hturn
    simp only [RelayService.step, RelayService.host_turn] at hstep
    cases htask : r.host_task with
    | reading | acking frame | greeting c frame | forwarding c frame | closing closing =>
      simp [htask, attending] at h
    | closing_slow closing e =>
      simp only [htask] at hstep
      split at hstep
      · simp at hstep
      all_goals
        cases hstep
        rfl
    | raised e =>
      simp only [htask, Option.some.injEq] at hstep
      rw [← hstep]
      rfl
    | disconnecting ids closings =>
      cases ids with
      | nil =>
        cases closings with
        | nil =>
          simp only [htask, Option.some.injEq] at hstep
          rw [← hstep]
          rfl
        | cons closing closings =>
          simp only [htask] at hstep
          split at hstep
          · simp at hstep
          · split at hstep
            · simp at hstep
            all_goals
              cases hstep
              rfl
      | cons session_id ids =>
        simp only [htask] at hstep
        split at hstep
        all_goals
          cases hstep
          rfl
    | ended => simp [htask] at hstep
  · have hsame := step_host_task (fun turn hs => hturn ⟨turn, hs⟩) hstep
    rw [hsame]
    exact h

/-- A session frame that does not find its session takes the handler out of its loop. -/
theorem lost_host_reader {turn : Turn}
    (hsession : (∃ host_id, frame.payload = .host_hello host_id) ∨
      ∃ envelope, frame.payload = .gateway_envelope envelope)
    (hlost : finds encodings r frame turn = false) {host : PeerEndpoint} {task : HostTask} :
    attending (RelayService.host_reader encodings { r with host := host, host_task := task }
      (.frame frame) turn).host_task = false := by
  unfold finds at hlost
  unfold RelayService.host_reader
  cases hget : r.sessions.get frame.session_id with
  | none => obtain ⟨_, hpayload⟩ | ⟨_, hpayload⟩ := hsession <;> simp only [hpayload, hget] <;> rfl
  | some c =>
    cases hphone : r.phones c with
    | none =>
      obtain ⟨_, hpayload⟩ | ⟨_, hpayload⟩ := hsession <;> simp only [hpayload, hget, hphone] <;> rfl
    | some phone =>
      rcases hsession with ⟨host_id, hpayload⟩ | ⟨envelope, hpayload⟩
      · simp only [hget, hphone, hpayload, Option.bind_some] at hlost ⊢
        by_cases hhost : host_id = phone.session.host_id
        · simp only [hhost, decide_true, Bool.and_true, Bool.not_eq_false'] at hlost
          simp only [hhost, hlost, ne_eq, not_true_eq_false, if_false, if_true]
          rfl
        · rw [if_pos hhost]
          rfl
      · simp only [hget, hphone, hpayload, Option.bind_some] at hlost ⊢
        cases hchecks : RelayService.forward_checks encodings phone.session frame envelope
          .host turn with
        | error e => rfl
        | ok envelope' =>
          simp only [hchecks, Bool.and_true, Bool.not_eq_false'] at hlost
          simp only [hlost, if_true]
          rfl

/-- A step that is not undisturbed takes the host's handler out of its loop. -/
theorem disturbed_step (hdisturbed : undisturbed queue_limit encodings r s = false)
    (hstep : r.step queue_limit encodings s = some r') : attending r'.host_task = false := by
  unfold undisturbed at hdisturbed
  cases s with
  | host_turn turn =>
    simp only [RelayService.step, RelayService.host_turn] at hstep
    simp only at hdisturbed
    cases htask : r.host_task with
    | reading =>
      simp only [htask] at hdisturbed hstep
      cases hhangup : turn.hangup with
      | true => simp [hhangup] at hdisturbed
      | false =>
        cases hincoming : r.host.incoming with
        | nil => simp [hhangup, hincoming] at hdisturbed
        | cons message rest =>
          simp only [hhangup, hincoming, Bool.false_eq_true, if_false, Option.some.injEq]
            at hdisturbed hstep
          rw [← hstep]
          cases message with
          | closed | rejected => simp at hdisturbed
          | frame frame =>
            cases hpayload : frame.payload with
            | host_hello host_id =>
              simp only [hpayload] at hdisturbed
              exact lost_host_reader (Or.inl ⟨host_id, hpayload⟩) hdisturbed
            | gateway_envelope envelope =>
              simp only [hpayload] at hdisturbed
              exact lost_host_reader (Or.inr ⟨envelope, hpayload⟩) hdisturbed
            | _ => simp [hpayload] at hdisturbed
    | greeting c frame | forwarding c frame =>
      simp only [htask] at hdisturbed hstep
      split at hstep
      · simp at hstep
      · rename_i phone hphone
        simp only [hphone, Bool.not_eq_false', timesOut, Bool.and_eq_true,
          decide_eq_true_eq] at hdisturbed
        have hput : phone.endpoint.put queue_limit frame turn.timeout =
            some (.error (.relay "relay peer queue full")) := by
          unfold PeerEndpoint.put
          rw [if_neg (by omega), if_pos hdisturbed.2]
        rw [hput] at hstep
        simp only at hstep
        first
          | (cases hstep
             rfl)
          | (split at hstep
             all_goals
               cases hstep
               rfl)
    | _ => simp [htask] at hdisturbed
  | _ => simp at hdisturbed

theorem attending_run (steps : List RelayService.Step) (h : attending r.host_task = false)
    (hrun : r.run queue_limit encodings steps = some r') : attending r'.host_task = false := by
  induction steps generalizing r with
  | nil =>
    simp only [RelayService.run] at hrun
    cases hrun
    exact h
  | cons s steps ih =>
    simp only [RelayService.run] at hrun
    cases hstep : r.step queue_limit encodings s with
    | none => simp [hstep] at hrun
    | some next =>
      simp only [hstep] at hrun
      exact ih (attending_step h hstep) hrun

theorem disturbed_run (steps : List RelayService.Step)
    (hrun : r.run queue_limit encodings steps = some r')
    (hdisturbed : allUndisturbed queue_limit encodings r steps = false) :
    attending r'.host_task = false := by
  induction steps generalizing r with
  | nil => simp [allUndisturbed] at hdisturbed
  | cons s steps ih =>
    simp only [RelayService.run] at hrun
    simp only [allUndisturbed, Bool.and_eq_false_iff] at hdisturbed
    cases hstep : r.step queue_limit encodings s with
    | none => simp [hstep] at hrun
    | some next =>
      simp only [hstep] at hrun hdisturbed
      rcases hdisturbed with hnow | hlater
      · exact attending_run steps (disturbed_step hnow hstep) hrun
      · exact ih hrun hlater

/-- **A session takes no other session and not the host down while the host's frames find
their sessions, and takes the host down otherwise.**  In a run without an event of the
host the host's handler is still in its loop exactly if every step was undisturbed; the
host's connection is then open, and a session that is closed had an event of its own.
SOURCE: lib/mobile_gateway/relay_service.py:580-646, 760-842, 893-932 -/
theorem relay_sessions_isolated (queue_limit : ℕ) (encodings : Encodings)
    (steps : List RelayService.Step) (r : RelayService)
    (hrun : RelayService.start.run queue_limit encodings steps = some r)
    (hhost : .host ∉ events queue_limit encodings .start steps) :
    (allUndisturbed queue_limit encodings .start steps = true ↔ attending r.host_task = true) ∧
    (allUndisturbed queue_limit encodings .start steps = true →
      r.host.closed = false ∧
      ∀ c phone, r.phones c = some phone →
        (r.sessions.get phone.session.session_id ≠ some c ∨ phone.session.closed = true ∨
          phone.endpoint.closed = true) →
        .session phone.session.session_id ∈ events queue_limit encodings .start steps) := by
  have hkept : allUndisturbed queue_limit encodings .start steps = true →
      Inv (events queue_limit encodings .start steps) r := by
    intro hundisturbed
    have hinv := inv_run steps inv_start hrun hhost hundisturbed
    rw [List.nil_append] at hinv
    exact hinv
  refine ⟨⟨fun hundisturbed => (hkept hundisturbed).host_attending, ?_⟩, ?_⟩
  · intro hattending
    by_contra hdisturbed
    rw [Bool.not_eq_true] at hdisturbed
    have hnot := disturbed_run steps hrun hdisturbed
    rw [hattending] at hnot
    simp at hnot
  · intro hundisturbed
    have hinv := hkept hundisturbed
    refine ⟨hinv.host_open, ?_⟩
    intro c phone hphone hclosed
    refine hinv.fading c phone hphone ?_
    rcases hclosed with hget | hsession | hendpoint
    · exact Or.inl hget
    · exact Or.inr (Or.inr (Or.inl hsession))
    · exact Or.inr (Or.inl hendpoint)

/-- The number of a host's gateway envelope, if it is one of the frame's session. -/
def envelopeSeq (encodings : Encodings) (frame : RelayFrame) : Option ℤ :=
  match frame.payload with
  | .gateway_envelope envelope =>
    match RelayV2Envelope.from_json encodings envelope with
    | .error _ => none
    | .ok envelope =>
      if envelope.session_id = frame.session_id ∧ envelope.direction = .host_to_phone then
        some envelope.seq
      else none
  | _ => none

/-- The host sends nothing but gateway envelopes of sessions that it has been told of and
not been told are closed, with growing numbers. -/
def followsProtocol (encodings : Encodings) (r : RelayService) : RelayService.Step → Bool
  | .host_sends (.frame frame) =>
    match envelopeSeq encodings frame with
    | none => false
    | some seq =>
      (r.heard.any fun f => f.session_id = frame.session_id && f.payload.kind = "client_hello")
        && !(r.heard.any fun f => f.session_id = frame.session_id && f.payload = .close)
        && r.sent.all fun f => f.session_id ≠ frame.session_id
          || f.seq < frame.seq && (envelopeSeq encodings f).getD 0 < seq
  | .host_sends _ => false
  | _ => true

def allFollow (queue_limit : ℕ) (encodings : Encodings) (r : RelayService) :
    List RelayService.Step → Bool
  | [] => true
  | s :: steps =>
    followsProtocol encodings r s &&
      match r.step queue_limit encodings s with
      | none => true
      | some r => allFollow queue_limit encodings r steps

def exampleHello (session_id : Text) : RelayFrame :=
  { session_id := session_id, seq := 1, payload := .client_hello (asciiText "host") }

def exampleEnvelope (session_id : Text) : RelayFrame :=
  let fields := [("session_id", JsonValue.text session_id), ("seq", .ofInt 1),
    ("direction", .text RelayDirection.host_to_phone.value), ("op", .text (asciiText "op")),
    ("nonce_b64", .text (asciiText "bm9uY2U")), ("ciphertext_b64", .text (asciiText "Y2lw")),
    ("key_id", .text relay_key_id), ("schema_version", .ofInt 2)]
  { session_id := session_id
    seq := 2
    payload := .gateway_envelope
      (fields.foldl (fun d field => d.set (asciiText field.1) field.2) .empty) }

/-- Two phones are connected, the host has been told of both, and one disconnects. -/
def oneLeaves : List RelayService.Step :=
  [.open_phone 0 (exampleHello [1]), .open_phone 1 (exampleHello [2]),
    .phone_turn 0 .plain, .phone_turn 1 .plain, .write_host true, .write_host true,
    .host_hears, .host_hears, .phone_sends 0 .closed, .phone_turn 0 .plain]

/-- An envelope for the phone that left is in flight while its session is closed. -/
def inFlight : List RelayService.Step :=
  oneLeaves ++ [.host_sends (.frame (exampleEnvelope [1])), .phone_turn 0 .plain,
    .host_turn .plain, .host_turn .plain, .host_turn .plain]

def quiet : List RelayService.Step :=
  oneLeaves ++ [.phone_turn 0 .plain, .host_sends (.frame (exampleEnvelope [2])),
    .host_turn .plain, .host_turn .plain]

theorem quiet_runs : (RelayService.start.run 4 plainEncodings quiet).isSome = true := by
  decide

theorem relay_sessions_isolated_quiet :
    ((RelayService.start.run 4 plainEncodings quiet).get quiet_runs).host.closed = false :=
  ((relay_sessions_isolated 4 plainEncodings quiet _ (Option.some_get quiet_runs).symm
    (by decide)).2 (by decide)).1

theorem relay_session_takes_host_down :
    allFollow 4 plainEncodings .start inFlight = true ∧
    events 4 plainEncodings .start inFlight = [.session [1]] ∧
    (RelayService.start.run 4 plainEncodings inFlight).map (fun r =>
      (r.host.closed, r.sessions.get [2], (r.phones 1).map fun phone => phone.session.closed)) =
        some (true, none, some true) := by
  refine ⟨by decide, by decide, ?_⟩
  decide

end ClaudeCodeBridge.Analysis.Relay
