import ClaudeCodeBridge.Model.CompletionDrivers

/-!
# What becomes of a terminal decision

A detector has no guard against items that follow the end of a turn: an item that ends
the turn again replaces the decision, and any other item withdraws it, while
`state.terminal` stays set.  `ending` names, for each detector, the items that end a turn
and the status they end it with; `ingest_decision` is the specification of all five
`ingest` functions by it.  A decision is sticky exactly when every item that follows it
ends the turn again with its status (`completion_decision_sticky`).

The two drivers differ in one point: the tracker forgets the reply candidates of a
session when it rotates, the orchestrator does not.  Both number the candidates alike
(`tracker_candidates`), so they choose alike exactly when no older candidate outranks the
newer ones (`completion_drivers_agree`).
-/

set_option autoImplicit false

namespace ClaudeCodeBridge.Analysis

open Program
open Model
open Model.Completion

variable (digest : List String → String) (settle_window_s : ℤ)

/-- The status with which an item ends the turn, if it does; `reply_started` is what the
state says before the item. -/
def ending (family : CompletionFamily) (reply_started : Bool) (item : CompletionItem) :
    Option CompletionStatus :=
  match family, item.kind with
  | .protocol_turn, .turn_boundary =>
    if (first_non_empty item.payload ["last_agent_message", "final_answer", "reply", "text"]).isNone
        && ((valueOf item.payload "empty_final_message").truthy || !reply_started)
    then some .incomplete else some .completed
  | .protocol_turn, .turn_aborted => some (Detector.terminal_status_from_abort item)
  | .structured_result, .result => some .completed
  | .structured_result, .cancel_info => some .cancelled
  | .structured_result, .turn_aborted => some (Detector.terminal_status_from_abort item)
  | .session_boundary, .turn_boundary =>
    if (first_non_empty item.payload ["last_agent_message", "reply", "text"]).isNone
        && !reply_started
    then some .incomplete else some .completed
  | .anchored_session_stability, .cancel_info => some .cancelled
  | .terminal_text_quiet, .assistant_chunk
  | .terminal_text_quiet, .assistant_final
  | .terminal_text_quiet, .result =>
    if (valueOf item.payload "done_marker").truthy || (valueOf item.payload "ccb_done").truthy
    then some .completed else none
  | .terminal_text_quiet, .cancel_info => some .cancelled
  | _, .error => some .failed
  | _, .pane_dead => some .failed
  | _, _ => none

def ending_reply (family : CompletionFamily) (item : CompletionItem) : Option String :=
  match family, item.kind with
  | .protocol_turn, .turn_boundary =>
    first_non_empty item.payload ["last_agent_message", "final_answer", "reply", "text"]
  | .protocol_turn, .turn_aborted =>
    first_non_empty item.payload ["last_agent_message", "reply", "text"]
  | .structured_result, .result =>
    first_non_empty item.payload ["reply", "result_text", "final_answer", "text"]
  | .session_boundary, .turn_boundary =>
    first_non_empty item.payload ["last_agent_message", "reply", "text"]
  | .terminal_text_quiet, .assistant_chunk
  | .terminal_text_quiet, .assistant_final
  | .terminal_text_quiet, .result =>
    first_non_empty item.payload ["reply", "result_text", "final_answer", "text"]
  | _, _ => none

/-- The decision of `d` is what `outcome` says, with the reply `reply`; `terminal` of the
state was `terminal` before. -/
structure Decides (outcome : Option CompletionStatus) (reply : String) (terminal : Bool)
    (d : Detector) : Prop where
  decision_terminal : d.decision.terminal = outcome.isSome
  state_terminal : d.state.terminal = (terminal || outcome.isSome)
  status : ∀ status, outcome = some status → d.decision.status = status
  reply : ∀ status, outcome = some status → d.decision.reply = reply

namespace Detector

theorem consume_payload_kept (s : CompletionState) (payload : Payload) :
    (Detector.consume_payload s payload).terminal = s.terminal ∧
      (Detector.consume_payload s payload).reply_started = s.reply_started := by
  unfold Detector.consume_payload
  cases first_non_empty payload ["subagent_id", "subagent_name"] <;>
    cases first_non_empty payload
      ["turn_id", "provider_turn_ref", "message_id", "provider_session_id", "session_id"] <;>
    exact ⟨rfl, rfl⟩

@[simp] theorem consume_common_item_terminal (d : Detector) (item : CompletionItem) :
    (d.consume_common_item item).state.terminal = d.state.terminal := by
  unfold Detector.consume_common_item
  rw [(consume_payload_kept _ _).1]
  cases item.kind <;> rfl

theorem consume_common_item_reply_started (d : Detector) {item : CompletionItem}
    (hkind : item.kind ≠ .session_rotate) :
    (d.consume_common_item item).state.reply_started = d.state.reply_started := by
  unfold Detector.consume_common_item
  rw [(consume_payload_kept _ _).2]
  cases h : item.kind <;> first | rfl | exact absurd h hkind

@[simp] theorem record_reply_terminal (d : Detector) (item : CompletionItem) (text : String)
    (stable : Bool) (fingerprint : Option String) :
    (d.record_reply digest item text stable fingerprint).state.terminal = d.state.terminal := by
  unfold Detector.record_reply
  dsimp only
  split <;> rfl

@[simp] theorem record_text_terminal (d : Detector) (item : CompletionItem)
    (text : Option String) (stable : Bool) :
    (d.record_text digest item text stable).state.terminal = d.state.terminal := by
  cases text with
  | none => rfl
  | some text => exact record_reply_terminal digest d item text stable none

@[simp] theorem count_tool_calls_terminal (d : Detector) (item : CompletionItem) :
    (d.count_tool_calls item).state.terminal = d.state.terminal := by
  unfold Detector.count_tool_calls
  split <;> rfl

@[simp] theorem observe_session_reply_terminal (d : Detector) (item : CompletionItem)
    (reply : String) :
    (d.observe_session_reply digest item reply).state.terminal = d.state.terminal := by
  unfold Detector.observe_session_reply
  dsimp only
  split
  · simp only [record_reply_terminal]
  · rfl

end Detector

theorem decides_set_terminal (d : Detector) (terminal : Bool) (status : CompletionStatus)
    (reason : String) (confidence : CompletionConfidence) (finished_at : Timestamp)
    (reply : String) (diagnostics : Payload) :
    Decides (some status) reply terminal
      (d.set_terminal status reason confidence finished_at reply diagnostics) where
  decision_terminal := rfl
  state_terminal := (Bool.or_true terminal).symm
  status := fun _ h => Option.some.inj h
  reply := fun _ _ => rfl

variable {d : Detector}

theorem decides_set_pending {terminal : Bool} (reply : String)
    (h : d.state.terminal = terminal) : Decides none reply terminal d.set_pending where
  decision_terminal := rfl
  state_terminal := h.trans (Bool.or_false terminal).symm
  status := fun _ h => absurd h (by simp)
  reply := fun _ h => absurd h (by simp)

/-- **The specification of `ingest`**, for all five detectors. -/
theorem ingest_decision (family : CompletionFamily) (d : Detector) (item : CompletionItem) :
    Decides (ending family d.state.reply_started item) ((ending_reply family item).getD "")
      d.state.terminal (d.ingest digest family item) := by
  have hterminal := Detector.consume_common_item_terminal d item
  cases family with
  | protocol_turn =>
    simp only [Detector.ingest, Detector.ingest_protocol_turn, ending, ending_reply]
    cases hkind : item.kind with
    | assistant_chunk | assistant_final | result =>
      exact decides_set_pending _ (by simp)
    | turn_boundary =>
      have hplain : item.kind ≠ .session_rotate := by simp [hkind]
      have hstarted := Detector.consume_common_item_reply_started d hplain
      simp only [Detector.protocol_complete_from_boundary, hstarted]
      split
      · rename_i hempty
        simp only [Bool.and_eq_true, Option.isNone_iff_eq_none] at hempty
        rw [hempty.1]
        exact decides_set_terminal _ _ _ _ _ _ _ _
      · exact decides_set_terminal _ _ _ _ _ _ _ _
    | turn_aborted | error | pane_dead => exact decides_set_terminal _ _ _ _ _ _ _ _
    | _ => exact decides_set_pending _ hterminal
  | structured_result =>
    simp only [Detector.ingest, Detector.ingest_structured_result, ending, ending_reply]
    cases hkind : item.kind with
    | assistant_chunk | assistant_final => exact decides_set_pending _ (by simp)
    | result | cancel_info | turn_aborted | error | pane_dead =>
      exact decides_set_terminal _ _ _ _ _ _ _ _
    | _ => exact decides_set_pending _ hterminal
  | session_boundary =>
    simp only [Detector.ingest, Detector.ingest_session_boundary, ending, ending_reply]
    cases hkind : item.kind with
    | assistant_chunk | assistant_final => exact decides_set_pending _ (by simp)
    | turn_boundary =>
      have hplain : item.kind ≠ .session_rotate := by simp [hkind]
      have hstarted := Detector.consume_common_item_reply_started d hplain
      simp only [hstarted]
      split
      · rename_i hempty
        simp only [Bool.and_eq_true, Option.isNone_iff_eq_none] at hempty
        rw [hempty.1]
        exact decides_set_terminal _ _ _ _ _ _ _ _
      · exact decides_set_terminal _ _ _ _ _ _ _ _
    | error | pane_dead => exact decides_set_terminal _ _ _ _ _ _ _ _
    | _ => exact decides_set_pending _ hterminal
  | anchored_session_stability =>
    simp only [Detector.ingest, Detector.ingest_anchored_session_stability, ending, ending_reply]
    cases hkind : item.kind with
    | cancel_info | error | pane_dead => exact decides_set_terminal _ _ _ _ _ _ _ _
    | session_snapshot | session_mutation =>
      simp only
      split
      · exact decides_set_pending _ (by simp)
      · exact decides_set_pending _ (by simp)
    | _ => exact decides_set_pending _ hterminal
  | terminal_text_quiet =>
    simp only [Detector.ingest, Detector.ingest_terminal_text_quiet, ending, ending_reply]
    cases hkind : item.kind with
    | assistant_chunk | assistant_final | result =>
      simp only
      split
      · exact decides_set_terminal _ _ _ _ _ _ _ _
      · exact decides_set_pending _ (by simp)
    | cancel_info | error | pane_dead => exact decides_set_terminal _ _ _ _ _ _ _ _
    | _ => exact decides_set_pending _ hterminal

theorem sync_cursor_terminal (d : Detector) (cursor : Option CompletionCursor) :
    (d.sync_cursor cursor).state.terminal = d.state.terminal
      ∧ (d.sync_cursor cursor).decision = d.decision := by
  cases cursor with
  | none | some cursor => exact ⟨rfl, rfl⟩

inductive Call where
  | ingest (item : CompletionItem)
  | tick (now : Timestamp) (cursor : Option CompletionCursor)
  | finalize_timeout (now : Timestamp) (cursor : Option CompletionCursor)

variable (family : CompletionFamily)

def Call.apply (d : Detector) : Call → Detector
  | ingest item => d.ingest digest family item
  | tick now cursor => d.tick settle_window_s family now cursor
  | finalize_timeout now cursor => d.finalize_timeout family now cursor

/-- State and decision tell the same. -/
def TerminalAgrees (d : Detector) : Prop := d.state.terminal = d.decision.terminal

def after (d : Detector) (calls : List Call) : Detector :=
  calls.foldl (Call.apply digest settle_window_s family) d

/-- `state().terminal` is `decision().terminal` after every call, and a terminal decision
stays terminal with its status, whatever calls follow. -/
def Sticky (d : Detector) (calls : List Call) : Prop :=
  ∀ before between later, calls = before ++ (between ++ later) →
    TerminalAgrees (after digest settle_window_s family d before) ∧
    ((after digest settle_window_s family d before).decision.terminal = true →
      (after digest settle_window_s family d (before ++ between)).decision.terminal = true ∧
      (after digest settle_window_s family d (before ++ between)).decision.status =
        (after digest settle_window_s family d before).decision.status)

def Call.confirms (d : Detector) : Call → Prop
  | ingest item => d.decision.terminal = true →
      ending family d.state.reply_started item = some d.decision.status
  | tick _ _ => True
  | finalize_timeout _ _ => True

/-- Every call of a run confirms the decision it finds. -/
def Confirmed : Detector → List Call → Prop
  | _, [] => True
  | d, call :: calls =>
    call.confirms family d ∧ Confirmed (Call.apply digest settle_window_s family d call) calls

theorem agrees_tick (h : TerminalAgrees d) (now : Timestamp) (cursor : Option CompletionCursor) :
    TerminalAgrees (d.tick settle_window_s family now cursor) := by
  have hsync := sync_cursor_terminal d cursor
  have hplain : TerminalAgrees (d.sync_cursor cursor) := by
    unfold TerminalAgrees
    rw [hsync.1, hsync.2]
    exact h
  cases family with
  | anchored_session_stability =>
    simp only [Detector.tick, Detector.tick_anchored]
    split
    · exact hplain
    · rename_i hterminal
      have hpending : TerminalAgrees (d.sync_cursor cursor).set_pending := by
        show (d.sync_cursor cursor).state.terminal = false
        rw [hplain]
        simpa using hterminal
      split
      · split
        · exact hpending
        · split
          · rfl
          · exact hpending
      · exact hplain
  | _ => exact hplain

theorem agrees_finalize_incomplete (h : TerminalAgrees d) (now : Timestamp)
    (cursor : Option CompletionCursor) : TerminalAgrees (d.finalize_incomplete now cursor) := by
  unfold Detector.finalize_incomplete
  split
  · exact h
  · rfl

theorem agrees_sync_cursor (h : TerminalAgrees d)
    (cursor : Option CompletionCursor) : TerminalAgrees (d.sync_cursor cursor) := by
  unfold TerminalAgrees
  rw [(sync_cursor_terminal d cursor).1, (sync_cursor_terminal d cursor).2]
  exact h

theorem agrees_finalize_timeout (h : TerminalAgrees d) (now : Timestamp)
    (cursor : Option CompletionCursor) : TerminalAgrees (d.finalize_timeout family now cursor) := by
  have hincomplete := agrees_finalize_incomplete (agrees_sync_cursor h cursor) now cursor
  cases family with
  | terminal_text_quiet =>
    simp only [Detector.finalize_timeout, Detector.finalize_quiet]
    split
    · exact h
    · split
      · rfl
      · exact hincomplete
  | anchored_session_stability =>
    simp only [Detector.finalize_timeout, Detector.finalize_anchored]
    split
    · exact h
    · exact hincomplete
  | _ => exact agrees_finalize_incomplete h now cursor

theorem keeps_decision (hterminal : d.decision.terminal = true) (now : Timestamp)
    (cursor : Option CompletionCursor) :
    (d.tick settle_window_s family now cursor).decision = d.decision ∧
      (d.finalize_timeout family now cursor).decision = d.decision := by
  have hsync := (sync_cursor_terminal d cursor).2
  constructor
  · cases family with
    | anchored_session_stability =>
      simp only [Detector.tick, Detector.tick_anchored]
      rw [if_pos (by rw [hsync]; exact hterminal)]
      exact hsync
    | _ => exact hsync
  · cases family with
    | terminal_text_quiet =>
      simp only [Detector.finalize_timeout, Detector.finalize_quiet, hterminal, if_true]
    | anchored_session_stability =>
      simp only [Detector.finalize_timeout, Detector.finalize_anchored, hterminal, if_true]
    | _ => simp only [Detector.finalize_timeout, Detector.finalize_incomplete, hterminal, if_true]

/-- **One call keeps state and decision together exactly when it confirms the decision it
finds**, and then keeps a terminal decision terminal with its status. -/
theorem call_step (h : TerminalAgrees d) (call : Call) :
    (call.confirms family d → TerminalAgrees (call.apply digest settle_window_s family d) ∧
      (d.decision.terminal = true →
        (call.apply digest settle_window_s family d).decision.terminal = true ∧
        (call.apply digest settle_window_s family d).decision.status = d.decision.status)) ∧
    (TerminalAgrees (call.apply digest settle_window_s family d) →
      (d.decision.terminal = true →
        (call.apply digest settle_window_s family d).decision.status = d.decision.status) →
      call.confirms family d) := by
  cases call with
  | ingest item =>
    have hspec := ingest_decision digest family d item
    constructor
    · intro hconfirms
      constructor
      · show _ = _
        rw [Call.apply, hspec.state_terminal, hspec.decision_terminal, h]
        cases hd : d.decision.terminal with
        | false => rfl
        | true => rw [hconfirms hd]; rfl
      · intro hd
        have hending := hconfirms hd
        refine ⟨?_, hspec.status _ hending⟩
        rw [Call.apply, hspec.decision_terminal, hending]
        rfl
    · intro hagrees hstatus hd
      have hsome : (ending family d.state.reply_started item).isSome = true := by
        have hboth : (d.ingest digest family item).state.terminal =
            (d.ingest digest family item).decision.terminal := hagrees
        rw [hspec.state_terminal, hspec.decision_terminal, h, hd] at hboth
        exact hboth.symm
      obtain ⟨status, hending⟩ := Option.isSome_iff_exists.mp hsome
      rw [hending, ← hspec.status status hending]
      exact congrArg some (hstatus hd)
  | tick now cursor =>
    refine ⟨fun _ => ⟨agrees_tick settle_window_s family h now cursor, fun hd => ?_⟩,
      fun _ _ => trivial⟩
    simp only [Call.apply, (keeps_decision settle_window_s family hd now cursor).1]
    exact ⟨hd, trivial⟩
  | finalize_timeout now cursor =>
    refine ⟨fun _ => ⟨agrees_finalize_timeout family h now cursor, fun hd => ?_⟩,
      fun _ _ => trivial⟩
    simp only [Call.apply, (keeps_decision settle_window_s family hd now cursor).2]
    exact ⟨hd, trivial⟩

theorem confirmed_keeps (between later : List Call) (h : TerminalAgrees d)
    (hconfirmed : Confirmed digest settle_window_s family d (between ++ later))
    (hd : d.decision.terminal = true) :
    (after digest settle_window_s family d between).decision.terminal = true ∧
      (after digest settle_window_s family d between).decision.status = d.decision.status := by
  induction between generalizing d with
  | nil => exact ⟨hd, rfl⟩
  | cons call between ih =>
    obtain ⟨hagrees, hkeep⟩ := (call_step digest settle_window_s family h call).1 hconfirmed.1
    obtain ⟨hterminal, hstatus⟩ := hkeep hd
    obtain ⟨hend, hsame⟩ := ih hagrees hconfirmed.2 hterminal
    exact ⟨hend, hsame.trans hstatus⟩

theorem sticky_iff_confirmed (calls : List Call) (h : TerminalAgrees d) :
    Sticky digest settle_window_s family d calls ↔
      Confirmed digest settle_window_s family d calls := by
  induction calls generalizing d with
  | nil =>
    constructor
    · exact fun _ => trivial
    · intro _ before between later hsplit
      obtain ⟨rfl, hrest⟩ := List.append_eq_nil_iff.mp hsplit.symm
      obtain ⟨rfl, rfl⟩ := List.append_eq_nil_iff.mp hrest
      exact ⟨h, fun hd => ⟨hd, rfl⟩⟩
  | cons call calls ih =>
    have hstep := call_step digest settle_window_s family h call
    constructor
    · intro hsticky
      have hagrees := (hsticky [call] [] calls rfl).1
      have hkeep := (hsticky [] [call] calls rfl).2
      have hrest : Sticky digest settle_window_s family
          (call.apply digest settle_window_s family d) calls := by
        intro before between later hsplit
        exact hsticky (call :: before) between later (by rw [hsplit]; rfl)
      exact ⟨hstep.2 hagrees fun hd => (hkeep hd).2, (ih hagrees).1 hrest⟩
    · intro hconfirmed before between later hsplit
      cases before with
      | nil =>
        have hsplit' : call :: calls = between ++ later := hsplit
        refine ⟨h, confirmed_keeps digest settle_window_s family between later h ?_⟩
        rw [← hsplit']
        exact hconfirmed
      | cons first before =>
        obtain ⟨rfl, hrest⟩ := List.cons.inj hsplit
        obtain ⟨hagrees, _⟩ := hstep.1 hconfirmed.1
        exact (ih hagrees).2 hconfirmed.2 before between later hrest

/-- **A terminal decision is sticky exactly when every item that follows it ends the turn
again with its status.**
SOURCE: lib/completion/detectors/base.py:37-165 -/
theorem completion_decision_sticky (request_ctx : CompletionRequestContext)
    (baseline : CompletionCursor) (calls : List Call) :
    Sticky digest settle_window_s family (Detector.bind request_ctx baseline) calls ↔
      Confirmed digest settle_window_s family (Detector.bind request_ctx baseline) calls :=
  sticky_iff_confirmed digest settle_window_s family calls rfl

def bareItem (kind : CompletionItemKind) : CompletionItem :=
  { kind := kind
    timestamp := 1
    cursor := ⟨.protocol_event_stream, none, none, none, none, some 1, some 1⟩
    payload := Dict.empty }

/-- One batch of a died pane and a late tool result: the failure is withdrawn. -/
theorem completion_decision_withdrawn :
    ¬ Sticky (fun _ => "") 2 .protocol_turn
      (Detector.bind ⟨0, 0, "codex", 60⟩ (bareItem .anchor_seen).cursor)
      [.ingest (bareItem .pane_dead), .ingest (bareItem .tool_result)] := by
  intro hsticky
  have hkeep := (hsticky [.ingest (bareItem .pane_dead)] [.ingest (bareItem .tool_result)] []
    rfl).2 (by decide)
  exact absurd hkeep.1 (by decide)

def rank (c : ReplyCandidate) : ℕ := if c.priority = 0 then 999 else c.priority

/-- The latest of the candidates with the smallest rank. -/
def preferred : List ReplyCandidate → Option ReplyCandidate
  | [] => none
  | c :: cs =>
    match preferred cs with
    | none => some c
    | some best => if rank best ≤ rank c then some best else some c

/-- The candidates with the numbers that a selector gives them, from `n` on. -/
def numbered : ℕ → List ReplyCandidate → List (ℕ × ReplyCandidate)
  | _, [] => []
  | n, c :: cs => (n, c) :: numbered (n + 1) cs

theorem ingest_candidates (cs : List ReplyCandidate) (s : ReplySelector) :
    cs.foldl ReplySelector.ingest_candidate s =
      ⟨s.candidates ++ numbered s.sequence cs, s.sequence + cs.length⟩ := by
  induction cs generalizing s with
  | nil => simp [numbered]
  | cons c cs ih =>
    rw [List.foldl_cons, ih]
    simp only [ReplySelector.ingest_candidate, numbered, List.append_assoc, List.singleton_append,
      List.length_cons]
    congr 1
    omega

theorem numbered_append (n : ℕ) (cs ds : List ReplyCandidate) :
    numbered n (cs ++ ds) = numbered n cs ++ numbered (n + cs.length) ds := by
  induction cs generalizing n with
  | nil => simp [numbered]
  | cons c cs ih =>
    have hlength : n + 1 + cs.length = n + (cs.length + 1) := by omega
    simp only [List.cons_append, numbered, ih, List.length_cons, hlength]

theorem le_of_mem_numbered {n : ℕ} {cs : List ReplyCandidate} {entry : ℕ × ReplyCandidate}
    (h : entry ∈ numbered n cs) : n ≤ entry.1 := by
  induction cs generalizing n with
  | nil => exact absurd h List.not_mem_nil
  | cons c cs ih =>
    rcases List.mem_cons.mp h with rfl | hrest
    · exact le_refl n
    · have hle := ih hrest
      omega

theorem key_lt_iff {entry earlier : ℕ × ReplyCandidate} (h : earlier.1 < entry.1) :
    ReplySelector.key entry < ReplySelector.key earlier ↔ rank entry.2 ≤ rank earlier.2 := by
  unfold ReplySelector.key
  rw [Prod.Lex.toLex_lt_toLex]
  show rank entry.2 < rank earlier.2 ∨
    rank entry.2 = rank earlier.2 ∧ -(entry.1 : ℤ) < -(earlier.1 : ℤ) ↔ _
  omega

theorem argmin_numbered (n : ℕ) (cs : List ReplyCandidate) :
    ((numbered n cs).argmin ReplySelector.key).map Prod.snd = preferred cs := by
  induction cs generalizing n with
  | nil => rfl
  | cons c cs ih =>
    have hrest := ih (n + 1)
    rw [numbered, List.argmin_cons, preferred, ← hrest]
    cases hmin : (numbered (n + 1) cs).argmin ReplySelector.key with
    | none => rfl
    | some entry =>
      have hlater := le_of_mem_numbered (List.argmin_mem hmin)
      have hfirst : (n, c).1 < entry.1 := hlater
      have hkey := key_lt_iff hfirst
      simp only [Option.map_some, hkey]
      split <;> rfl

theorem preferred_append (old recent : List ReplyCandidate) :
    preferred (old ++ recent) =
      match preferred old, preferred recent with
      | o, none => o
      | none, some r => some r
      | some o, some r => if rank r ≤ rank o then some r else some o := by
  induction old with
  | nil =>
    rw [List.nil_append, preferred]
    cases preferred recent <;> rfl
  | cons c old ih =>
    rw [List.cons_append, preferred, ih, preferred]
    cases preferred old with
    | none => cases preferred recent <;> rfl
    | some o =>
      cases preferred recent with
      | none => rfl
      | some r =>
        by_cases hro : rank r ≤ rank o <;> by_cases hoc : rank o ≤ rank c <;>
          by_cases hrc : rank r ≤ rank c <;> simp [hro, hoc, hrc] <;> omega

def preview_of (cs : List ReplyCandidate) : String :=
  ((preferred cs).map fun c => c.text).getD ""

theorem preview_numbered (n m : ℕ) (cs : List ReplyCandidate) :
    ReplySelector.preview ⟨numbered n cs, m⟩ = preview_of cs := by
  unfold ReplySelector.preview ReplySelector.best_candidate preview_of
  rw [argmin_numbered]

theorem finalize_reply (s : ReplySelector) {decision : Completion.CompletionDecision}
    (hterminal : decision.terminal = true) :
    (s.finalize decision).reply = if decision.reply = "" then s.preview else decision.reply := by
  unfold ReplySelector.finalize ReplySelector.select Completion.CompletionDecision.with_reply
  by_cases hreply : decision.reply = ""
  · by_cases hpreview : s.preview = ""
    · simp [hterminal, hreply, hpreview]
    · simp [hterminal, hreply, hpreview]
  · simp [hterminal, hreply]

theorem finalize_fields (s : ReplySelector) (decision : Completion.CompletionDecision) :
    (s.finalize decision).status = decision.status
      ∧ (s.finalize decision).reason = decision.reason
      ∧ (s.finalize decision).confidence = decision.confidence := by
  unfold ReplySelector.finalize
  generalize (if decision.terminal = true then s.select decision else s.preview) = reply
  dsimp only
  split
  · exact ⟨rfl, rfl, rfl⟩
  · exact ⟨rfl, rfl, rfl⟩

def gathered (items : List CompletionItem) : List ReplyCandidate :=
  items.flatMap reply_candidates_from_item

/-- The items before the last rotation of the session, and those since. -/
def split_at_rotation (items : List CompletionItem) : List CompletionItem × List CompletionItem :=
  items.foldl
    (fun sessions item =>
      if item.kind = .session_rotate then (sessions.1 ++ sessions.2, [item])
      else (sessions.1, sessions.2 ++ [item]))
    ([], [])

theorem split_at_rotation_concat (items : List CompletionItem) (item : CompletionItem) :
    split_at_rotation (items ++ [item]) =
      if item.kind = .session_rotate then
        ((split_at_rotation items).1 ++ (split_at_rotation items).2, [item])
      else ((split_at_rotation items).1, (split_at_rotation items).2 ++ [item]) := by
  unfold split_at_rotation
  rw [List.foldl_append]
  rfl

theorem split_at_rotation_append (items : List CompletionItem) :
    (split_at_rotation items).1 ++ (split_at_rotation items).2 = items := by
  induction items using List.reverseRecOn with
  | nil => rfl
  | append_singleton items item ih =>
    rw [split_at_rotation_concat]
    split
    · exact congrArg (· ++ [item]) ih
    · rw [← List.append_assoc, ih]

/-- The tracker holds the candidates since the last rotation, numbered as if it had kept
the older ones. -/
theorem tracker_candidates (tracker : ActiveTracker) (items : List CompletionItem)
    (hnew : tracker.selector = .new) :
    (items.foldl (CompletionTrackerService.ingest_item digest) tracker).selector =
      ⟨numbered (gathered (split_at_rotation items).1).length
          (gathered (split_at_rotation items).2), (gathered items).length⟩ := by
  induction items using List.reverseRecOn with
  | nil => exact hnew
  | append_singleton items item ih =>
    have hparts := congrArg (fun items => (gathered items).length) (split_at_rotation_append items)
    simp only [gathered, List.flatMap_append, List.length_append] at hparts
    rw [List.foldl_append, List.foldl_cons, List.foldl_nil, split_at_rotation_concat]
    simp only [CompletionTrackerService.ingest_item, ReplySelector.ingest_item]
    rw [ih, ingest_candidates]
    by_cases hkind : item.kind = .session_rotate
    · simp only [hkind, if_true, ReplySelector.reset, gathered, List.flatMap_append,
        List.flatMap_cons, List.flatMap_nil, List.append_nil, List.length_append, hparts,
        List.nil_append]
    · simp only [hkind, if_false, gathered, List.flatMap_append, List.flatMap_cons,
        List.flatMap_nil, List.append_nil, List.length_append, numbered_append, hparts]

theorem orchestrator_candidates (items : List CompletionItem) :
    items.foldl ReplySelector.ingest_item .new =
      ⟨numbered 0 (gathered items), (gathered items).length⟩ := by
  induction items using List.reverseRecOn with
  | nil => rfl
  | append_singleton items item ih =>
    rw [List.foldl_append, List.foldl_cons, List.foldl_nil, ih, ReplySelector.ingest_item,
      ingest_candidates]
    simp only [gathered, List.flatMap_append, List.flatMap_cons, List.flatMap_nil,
      List.append_nil, numbered_append, Nat.zero_add, List.length_append]

def fed (d : Detector) (items : List CompletionItem) : Detector :=
  items.foldl (fun d item => d.ingest digest family item) d

/-- The states differ at most in the cursor. -/
def Alike (d e : Detector) : Prop :=
  { d.state with latest_cursor := none } = { e.state with latest_cursor := none }

variable {e : Detector}

theorem consume_alike (h : Alike d e) (item : CompletionItem) :
    (d.consume_common_item item).state = (e.consume_common_item item).state := by
  have hsync : (d.sync_cursor (some item.cursor)).state
      = (e.sync_cursor (some item.cursor)).state :=
    congrArg (fun s : CompletionState => { s with latest_cursor := some item.cursor }) h
  simp only [Detector.consume_common_item, hsync]

theorem record_text_state (h : d.state = e.state) (item : CompletionItem)
    (text : Option String) (stable : Bool) :
    (d.record_text digest item text stable).state
      = (e.record_text digest item text stable).state := by
  cases text with
  | none => exact h
  | some text =>
    simp only [Detector.record_text, Detector.record_reply]
    split
    · exact h
    · simp only [h]

theorem observe_session_reply_state (h : d.state = e.state)
    (item : CompletionItem) (reply : String) :
    (d.observe_session_reply digest item reply).state
      = (e.observe_session_reply digest item reply).state := by
  simp only [Detector.observe_session_reply, Detector.record_reply, h]
  split
  · split
    · simp only [h]
    · rfl
  · exact h

theorem count_tool_calls_state (h : d.state = e.state) (item : CompletionItem) :
    (d.count_tool_calls item).state = (e.count_tool_calls item).state := by
  unfold Detector.count_tool_calls
  split
  · exact h
  · simp only [h]

def Same (d e : Detector) : Prop := d.state = e.state ∧ d.decision = e.decision

theorem same_set_terminal (h : d.state = e.state) (status : CompletionStatus)
    (reason : String) (confidence : CompletionConfidence) (finished_at : Timestamp)
    (reply : String) (diagnostics : Payload) :
    Same (d.set_terminal status reason confidence finished_at reply diagnostics)
      (e.set_terminal status reason confidence finished_at reply diagnostics) := by
  constructor
  · simp only [Detector.set_terminal, h]
  · simp only [Detector.set_terminal, h]

theorem same_set_pending (h : d.state = e.state) : Same d.set_pending e.set_pending := by
  constructor
  · exact h
  · simp only [Detector.set_pending, h]

/-- **What a detector does with an item does not depend on the cursor it was at**, nor on
its decision or request. -/
theorem ingest_same (h : Alike d e) (item : CompletionItem) :
    Same (d.ingest digest family item) (e.ingest digest family item) := by
  have hstate := consume_alike h item
  have hrecord := record_text_state digest hstate item
  cases family with
  | protocol_turn =>
    simp only [Detector.ingest, Detector.ingest_protocol_turn]
    cases item.kind with
    | assistant_chunk | assistant_final | result => exact same_set_pending (hrecord _ _)
    | turn_boundary =>
      simp only [Detector.protocol_complete_from_boundary, hstate]
      split
      · exact same_set_terminal hstate _ _ _ _ _ _
      · exact same_set_terminal (hrecord _ _) _ _ _ _ _ _
    | turn_aborted => exact same_set_terminal (hrecord _ _) _ _ _ _ _ _
    | error | pane_dead => exact same_set_terminal hstate _ _ _ _ _ _
    | _ => exact same_set_pending hstate
  | structured_result =>
    simp only [Detector.ingest, Detector.ingest_structured_result]
    cases item.kind with
    | assistant_chunk | assistant_final => exact same_set_pending (hrecord _ _)
    | result => exact same_set_terminal (hrecord _ _) _ _ _ _ _ _
    | cancel_info | turn_aborted | error | pane_dead =>
      exact same_set_terminal hstate _ _ _ _ _ _
    | _ => exact same_set_pending hstate
  | session_boundary =>
    simp only [Detector.ingest, Detector.ingest_session_boundary]
    cases item.kind with
    | assistant_chunk | assistant_final => exact same_set_pending (hrecord _ _)
    | turn_boundary =>
      simp only [hstate]
      split
      · exact same_set_terminal hstate _ _ _ _ _ _
      · exact same_set_terminal (hrecord _ _) _ _ _ _ _ _
    | error | pane_dead => exact same_set_terminal hstate _ _ _ _ _ _
    | _ => exact same_set_pending hstate
  | anchored_session_stability =>
    simp only [Detector.ingest, Detector.ingest_anchored_session_stability]
    cases item.kind with
    | cancel_info | error | pane_dead => exact same_set_terminal hstate _ _ _ _ _ _
    | session_snapshot | session_mutation =>
      have hcount := count_tool_calls_state hstate item
      simp only
      split
      · exact same_set_pending (observe_session_reply_state digest hcount item _)
      · exact same_set_pending hcount
    | _ => exact same_set_pending hstate
  | terminal_text_quiet =>
    simp only [Detector.ingest, Detector.ingest_terminal_text_quiet]
    cases item.kind with
    | assistant_chunk | assistant_final | result =>
      simp only
      split
      · exact same_set_terminal (hrecord _ _) _ _ _ _ _ _
      · exact same_set_pending (hrecord _ _)
    | cancel_info | error | pane_dead => exact same_set_terminal hstate _ _ _ _ _ _
    | _ => exact same_set_pending hstate

theorem alike_of_same (h : Same d e) : Alike d e := by
  unfold Alike
  rw [h.1]

theorem fed_same (item : CompletionItem) (items : List CompletionItem) (h : Alike d e) :
    Same (fed digest family d (item :: items)) (fed digest family e (item :: items)) := by
  induction items generalizing d e item with
  | nil => exact ingest_same digest family h item
  | cons next items ih => exact ih next (alike_of_same (ingest_same digest family h item))

def EndsAtLast : Detector → List CompletionItem → Prop
  | _, [] => False
  | d, [item] => (d.ingest digest family item).decision.terminal = true
  | d, item :: next :: items =>
    (d.ingest digest family item).decision.terminal = false ∧
      EndsAtLast (d.ingest digest family item) (next :: items)

instance decidableEndsAtLast :
    (d : Detector) → (items : List CompletionItem) → Decidable (EndsAtLast digest family d items)
  | _, [] => isFalse id
  | d, [item] =>
    inferInstanceAs (Decidable ((d.ingest digest family item).decision.terminal = true))
  | d, item :: next :: items =>
    have := decidableEndsAtLast (d.ingest digest family item) (next :: items)
    inferInstanceAs (Decidable ((d.ingest digest family item).decision.terminal = false ∧
      EndsAtLast digest family (d.ingest digest family item) (next :: items)))

theorem loop_of_ends (deadline : Timestamp) (items : List CompletionItem)
    (cursor : CompletionCursor) (selector : ReplySelector)
    (hends : EndsAtLast digest family d items) :
    CompletionOrchestrator.loop digest family settle_window_s deadline (items.map Poll.item)
        cursor d selector =
      (items.foldl ReplySelector.ingest_item selector).finalize
        (fed digest family d items).decision := by
  induction items generalizing d cursor selector with
  | nil => exact hends.elim
  | cons item items ih =>
    cases items with
    | nil =>
      have hlast : (d.ingest digest family item).decision.terminal = true := hends
      simp only [List.map_cons, List.map_nil, CompletionOrchestrator.loop, hlast, if_true]
      rfl
    | cons next items =>
      rw [List.map_cons, CompletionOrchestrator.loop]
      simp only [hends.1, Bool.false_eq_true, if_false]
      exact ih item.cursor _ hends.2

theorem terminal_of_ends {items : List CompletionItem} (hends : EndsAtLast digest family d items) :
    (fed digest family d items).decision.terminal = true := by
  induction items generalizing d with
  | nil => exact hends.elim
  | cons item items ih =>
    cases items with
    | nil => exact hends
    | cons next items => exact ih hends.2

theorem reply_of_ends {items : List CompletionItem} (hends : EndsAtLast digest family d items) :
    (fed digest family d items).decision.reply =
      ((items.getLast?.bind (ending_reply family)).getD "") := by
  induction items generalizing d with
  | nil => exact hends.elim
  | cons item items ih =>
    cases items with
    | nil =>
      have hspec := ingest_decision digest family d item
      have hlast : (d.ingest digest family item).decision.terminal = true := hends
      rw [hspec.decision_terminal] at hlast
      obtain ⟨status, hending⟩ := Option.isSome_iff_exists.mp hlast
      exact hspec.reply status hending
    | cons next items =>
      rw [List.getLast?_cons_cons]
      exact ih hends.2

theorem ingest_all_get (items : List CompletionItem) {trackers : Trackers} {job_id : JobId}
    {tracker : ActiveTracker} (h : trackers.get job_id = some tracker) :
    ∃ trackers', CompletionTrackerService.ingest_all digest trackers job_id items = some trackers' ∧
      trackers'.get job_id =
        some (items.foldl (CompletionTrackerService.ingest_item digest) tracker) := by
  induction items generalizing trackers tracker with
  | nil => exact ⟨trackers, rfl, h⟩
  | cons item items ih =>
    have hset := Dict.get_set_self trackers job_id
      (CompletionTrackerService.ingest_item digest tracker item)
    obtain ⟨trackers', hall, hget⟩ := ih hset
    refine ⟨trackers', ?_, hget⟩
    rw [CompletionTrackerService.ingest_all, CompletionTrackerService.ingest, h]
    exact hall

theorem tracker_detector (tracker : ActiveTracker) (items : List CompletionItem) :
    (items.foldl (CompletionTrackerService.ingest_item digest) tracker).detector =
      fed digest tracker.family tracker.detector items := by
  induction items generalizing tracker with
  | nil => rfl
  | cons item items ih => exact ih (CompletionTrackerService.ingest_item digest tracker item)

/-- What the two drivers are compared by. -/
def SameOutcome (d e : Completion.CompletionDecision) : Prop :=
  d.status = e.status ∧ d.reason = e.reason ∧ d.confidence = e.confidence ∧ d.reply = e.reply

/-- No candidate from before the last rotation of the session matters: the ending item
gives its own reply, or the best of the older candidates, if there is one, is matched by
a candidate since then of no greater rank, or the best since then reads the same. -/
def RepliesKept (items : List CompletionItem) : Prop :=
  (items.getLast?.bind (ending_reply family)).isSome = true ∨
    ∀ old, preferred (gathered (split_at_rotation items).1) = some old →
      ∃ recent, preferred (gathered (split_at_rotation items).2) = some recent ∧
        (rank recent ≤ rank old ∨ recent.text = old.text)

variable {c : ReplyCandidate}

theorem preferred_mem {cs : List ReplyCandidate} (h : preferred cs = some c) : c ∈ cs := by
  induction cs with
  | nil => exact absurd h (by simp [preferred])
  | cons first cs ih =>
    rw [preferred] at h
    cases hrest : preferred cs with
    | none =>
      rw [hrest] at h
      cases h
      exact List.mem_cons_self
    | some best =>
      simp only [hrest] at h
      split at h
      · exact List.mem_cons_of_mem _ (ih (hrest.trans h))
      · cases h
        exact List.mem_cons_self

theorem first_non_empty_ne {payload : Payload} {keys : List String} {text : String}
    (h : first_non_empty payload keys = some text) : text ≠ "" := by
  unfold first_non_empty at h
  obtain ⟨key, _, hkey⟩ := List.exists_of_findSome?_eq_some h
  split at hkey
  · split at hkey
    · exact absurd hkey (by simp)
    · rename_i hblank
      rw [← Option.some.inj hkey]
      exact hblank
  · exact absurd hkey (by simp)

theorem candidate_text_ne {item : CompletionItem} {kind : ReplyCandidateKind}
    {keys : List String} (h : c ∈ candidate item kind keys) :
    c.text ≠ "" := by
  unfold candidate at h
  split at h
  · exact absurd h List.not_mem_nil
  · rename_i text htext
    rw [List.mem_singleton.mp h]
    exact first_non_empty_ne htext

theorem gathered_text_ne {items : List CompletionItem} (h : c ∈ gathered items) : c.text ≠ "" := by
  obtain ⟨item, _, hmem⟩ := List.mem_flatMap.mp h
  unfold reply_candidates_from_item at hmem
  rcases List.mem_append.mp hmem with hmem | hmem
  · rcases List.mem_append.mp hmem with hmem | hmem
    · exact candidate_text_ne hmem
    · split at hmem
      all_goals first
        | exact candidate_text_ne hmem
        | exact absurd hmem List.not_mem_nil
  · exact candidate_text_ne hmem

theorem ending_reply_ne {family : CompletionFamily} {item : CompletionItem} {text : String}
    (h : ending_reply family item = some text) : text ≠ "" := by
  unfold ending_reply at h
  split at h
  all_goals first
    | exact first_non_empty_ne h
    | exact absurd h (by simp)

/-- Forgetting the older candidates does not change the preview exactly when none of them
matters. -/
theorem preview_eq_iff (items : List CompletionItem) :
    preview_of (gathered (split_at_rotation items).2) = preview_of (gathered items) ↔
      ∀ old, preferred (gathered (split_at_rotation items).1) = some old →
        ∃ recent, preferred (gathered (split_at_rotation items).2) = some recent ∧
          (rank recent ≤ rank old ∨ recent.text = old.text) := by
  have hall : gathered items =
      gathered (split_at_rotation items).1 ++ gathered (split_at_rotation items).2 := by
    unfold gathered
    rw [← List.flatMap_append, split_at_rotation_append]
  unfold preview_of
  rw [hall, preferred_append]
  cases hold : preferred (gathered (split_at_rotation items).1) with
  | none =>
    cases hrecent : preferred (gathered (split_at_rotation items).2) <;> simp
  | some old =>
    cases hrecent : preferred (gathered (split_at_rotation items).2) with
    | none =>
      have hne := gathered_text_ne (preferred_mem hold)
      simpa using hne.symm
    | some recent =>
      by_cases hrank : rank recent ≤ rank old
      · simp [hrank]
      · simp [hrank]

/-- **The two drivers agree exactly when no reply candidate from before the last rotation
of the session matters.**
SOURCE: lib/completion/tracker.py:93-117, lib/completion/orchestration.py:16-60 -/
theorem completion_drivers_agree (profile : CompletionProfile) (request_timeout_s : ℕ)
    (trackers : Trackers) (job : JobRecord) (started_at deadline : Timestamp)
    (request_ctx : CompletionRequestContext) (baseline : CompletionCursor)
    (items : List CompletionItem)
    (hends : EndsAtLast digest profile.completion_family (Detector.bind request_ctx baseline)
      items) :
    ∃ trackers' view,
      CompletionTrackerService.ingest_all digest
        (CompletionTrackerService.start profile request_timeout_s trackers job started_at)
        job.job_id items = some trackers' ∧
      CompletionTrackerService.current trackers' job.job_id = some view ∧
      (SameOutcome view.decision
          (CompletionOrchestrator.run digest profile.completion_family settle_window_s deadline
            request_ctx baseline (items.map Poll.item)) ↔
        RepliesKept profile.completion_family items) := by
  have htracker : ∃ tracker, (CompletionTrackerService.start profile request_timeout_s trackers
      job started_at).get job.job_id = some tracker ∧ tracker.selector = .new ∧
      tracker.family = profile.completion_family ∧
      Alike tracker.detector (Detector.bind request_ctx baseline) :=
    ⟨_, Dict.get_set_self _ _ _, rfl, rfl, rfl⟩
  obtain ⟨tracker, hstart, hnew, hfamily, halike⟩ := htracker
  obtain ⟨trackers', hall, hget⟩ := ingest_all_get digest items hstart
  refine ⟨trackers', _, hall, by rw [CompletionTrackerService.current, hget]; rfl, ?_⟩
  have hselector := tracker_candidates digest tracker items hnew
  have hdetector := tracker_detector digest tracker items
  have hterminal := terminal_of_ends digest profile.completion_family hends
  have hreply := reply_of_ends digest profile.completion_family hends
  have hsame : (fed digest profile.completion_family tracker.detector items).decision =
      (fed digest profile.completion_family (Detector.bind request_ctx baseline)
        items).decision := by
    cases items with
    | nil => exact hends.elim
    | cons item items => exact (fed_same digest profile.completion_family item items halike).2
  rw [CompletionOrchestrator.run, loop_of_ends digest settle_window_s _ deadline items baseline _
    hends, orchestrator_candidates]
  simp only [hselector, hdetector, hfamily, hsame]
  generalize (fed digest profile.completion_family (Detector.bind request_ctx baseline)
    items).decision = decision at hterminal hreply
  have hfields := finalize_fields
    ⟨numbered (gathered (split_at_rotation items).1).length
      (gathered (split_at_rotation items).2), (gathered items).length⟩ decision
  have hfields' := finalize_fields ⟨numbered 0 (gathered items), (gathered items).length⟩ decision
  simp only [SameOutcome, hfields.1, hfields.2.1, hfields.2.2, hfields'.1, hfields'.2.1,
    hfields'.2.2, true_and, finalize_reply _ hterminal, preview_numbered]
  unfold RepliesKept
  rw [← preview_eq_iff]
  cases hlast : items.getLast?.bind (ending_reply profile.completion_family) with
  | none => simp [hreply, hlast]
  | some text =>
    have hne : text ≠ "" := by
      obtain ⟨item, _, hitem⟩ := Option.bind_eq_some_iff.mp hlast
      exact ending_reply_ne hitem
    simp [hreply, hlast, hne]

def textItem (kind : CompletionItemKind) (key text : String) : CompletionItem :=
  { bareItem kind with payload := Dict.empty.set key (.text text) }

def rotatedTurn : List CompletionItem :=
  [textItem .assistant_final "text" "old", bareItem .session_rotate,
    textItem .assistant_chunk "text" "new", bareItem .turn_boundary]

def protocolProfile : CompletionProfile := ⟨.protocol_turn, .protocol_event_stream⟩

def trackedJob : JobRecord :=
  { job_id := 1
    submission_id := none
    agent_name := 1
    provider := "codex"
    request := ⟨some 1, .user, "", none, none, .ask, .single, false, .empty⟩
    status := .running
    terminal_decision := none
    cancel_requested_at := none
    created_at := 0
    updated_at := 0
    provider_options := .empty }

def protocolDetector : Detector := Detector.bind ⟨1, 1, "codex", 60⟩ (bareItem .anchor_seen).cursor

/-- The orchestrator answers with the reply of the session that was left. -/
theorem completion_drivers_disagree :
    EndsAtLast (fun _ => "") .protocol_turn protocolDetector rotatedTurn ∧
    (((CompletionTrackerService.ingest_all (fun _ => "")
        (CompletionTrackerService.start protocolProfile 60 Dict.empty trackedJob 0) 1
        rotatedTurn).bind fun trackers => CompletionTrackerService.current trackers 1).map
          fun view => view.decision.reply) = some "new" ∧
    (CompletionOrchestrator.run (fun _ => "") .protocol_turn 2 60 ⟨1, 1, "codex", 60⟩
      (bareItem .anchor_seen).cursor (rotatedTurn.map Poll.item)).reply = "old" := by
  exact ⟨by decide, by decide, by decide⟩

/-- A rotation that leaves no reply behind. -/
def keptTurn : List CompletionItem :=
  [bareItem .anchor_seen, bareItem .session_rotate, textItem .assistant_chunk "text" "done",
    bareItem .turn_boundary]

/-- A turn that rotates before its reply ends with the same decision in both drivers. -/
theorem completion_drivers_agree_plainTurn :
    ∃ trackers' view,
      CompletionTrackerService.ingest_all (fun _ => "")
        (CompletionTrackerService.start protocolProfile 60 Dict.empty trackedJob 0) 1
        keptTurn = some trackers' ∧
      CompletionTrackerService.current trackers' 1 = some view ∧
      SameOutcome view.decision
        (CompletionOrchestrator.run (fun _ => "") .protocol_turn 2 60 ⟨1, 1, "codex", 60⟩
          (bareItem .anchor_seen).cursor (keptTurn.map Poll.item)) := by
  obtain ⟨trackers', view, hall, hcurrent, hagree⟩ :=
    completion_drivers_agree (fun _ => "") 2 protocolProfile 60 Dict.empty trackedJob 0 60
      ⟨1, 1, "codex", 60⟩ (bareItem .anchor_seen).cursor keptTurn (by decide)
  have hnone : preferred (gathered (split_at_rotation keptTurn).1) = none := by decide
  refine ⟨trackers', view, hall, hcurrent, hagree.2 (Or.inr fun old hold => ?_)⟩
  rw [hnone] at hold
  exact absurd hold (by simp)

end ClaudeCodeBridge.Analysis
