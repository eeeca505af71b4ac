import ClaudeCodeBridge.Analysis.NotificationJournals

/-!
# Events after a cursor

A client that resumes from the last event it has received gets every event of the journals
that follows it, in the order of the numbers and none twice.  It is told that events are
lost when its cursor is in neither journal; a cursor of one journal does not show what the
other one has dropped, and one of a resync shows nothing (`Served`).

The ladder: both journals (`ascending_events`); one response (`response_ascends`); the client
over a run (`client_run`); the cursors for which nothing is lost silently
(`resumes_iff_served`).
-/

set_option autoImplicit false

namespace ClaudeCodeBridge.Analysis.Notification

open Program
open Model.Notification

variable {limits : Limits} {store : NotificationStore} {client : Client} {e : Event}
  {cursor : EventId}

/-- Where an id stands among those that a client receives: a resync directly after the
event of its number. -/
def place : EventId → ℕ
  | .event sequence => 2 * sequence
  | .resync sequence => 2 * sequence + 1

def placeOf (event : Event) : ℕ := place event.id

/-- An event that was dropped, and for which no newer one of its key stands. -/
def Lost (limits : Limits) (store : NotificationStore) (e : Event) : Prop :=
  e ∈ store.emitted ∧ e ∉ store.events limits ∧
    ¬ ∃ e' ∈ store.invalidation_events limits, e.invalidation_record_key.isSome ∧
      e'.invalidation_record_key = e.invalidation_record_key ∧ e.sequence < e'.sequence

/-- The response holds all that follows the cursor, or says that something is lost. -/
def Resumes (limits : Limits) (store : NotificationStore) (cursor : EventId)
    (response : List Event) : Prop :=
  (∀ e ∈ store.events limits, cursor.sequence < e.sequence → e ∈ response) ∧
  ((∃ e, Lost limits store e ∧ cursor.sequence < e.sequence) →
    ∃ r ∈ response, r.kind = .resync_required)

/-- After a completion of the journal no invalidation is lost, after an invalidation of the
journal no completion, and after a resync nothing. -/
def Served (limits : Limits) (store : NotificationStore) : EventId → Prop
  | .event sequence =>
    (∀ c ∈ store.completion_events limits, c.id = .event sequence →
      ∀ e, Lost limits store e → sequence < e.sequence → e.kind = .task_completed) ∧
    (∀ i ∈ store.invalidation_events limits, i.id = .event sequence →
      ∀ e, Lost limits store e → sequence < e.sequence → e.kind ≠ .task_completed)
  | .resync sequence => ∀ e, Lost limits store e → e.sequence ≤ sequence

section

variable (h : JournalsKept store)

include h

theorem mem_events :
    e ∈ store.events limits ↔ e ∈ store.completion_journal ∨ e ∈ store.invalidation_journal := by
  unfold NotificationStore.events
  rw [mem_sortedBy, completion_events_eq h, invalidation_events_eq h, List.mem_append]

theorem emitted_of_events (he : e ∈ store.events limits) : e ∈ store.emitted := by
  rcases (mem_events h).mp he with he | he
  · exact (h.completions e he).1
  · exact (h.invalidations e he).1

theorem ascending_events : Ascending Event.sequence (store.events limits) := by
  apply ascending_sortedBy
  rw [completion_events_eq h, invalidation_events_eq h]
  have hmem : ∀ e ∈ store.completion_journal ++ store.invalidation_journal, e ∈ store.emitted := by
    intro e he
    rcases List.mem_append.mp he with he | he
    · exact (h.completions e he).1
    · exact (h.invalidations e he).1
  apply List.Nodup.map_on
  · intro e he e' he' hsame
    exact h.emitted.eq_of_rank (hmem e he) (hmem e' he') hsame
  · apply List.Nodup.append
    · exact h.completions_ascend.imp fun hlt heq => Nat.ne_of_lt hlt (congrArg _ heq)
    · exact h.keys.of_map
    · intro e hc hi
      exact not_completion (h.invalidations e hi).2 (h.completions e hc).2

theorem placeOf_event (he : e ∈ store.events limits) : placeOf e = 2 * e.sequence := by
  unfold placeOf
  rw [h.ids e (emitted_of_events h he)]
  rfl

theorem ascending_places {events : List Event}
    (hsub : events.Sublist (store.events limits)) : Ascending placeOf events := by
  have hascend := (ascending_events h).sublist hsub
  apply hascend.imp_of_mem
  intro a b ha hb hlt
  rw [placeOf_event h (hsub.subset ha), placeOf_event h (hsub.subset hb)]
  omega

theorem le_newest (he : e ∈ store.emitted) :
    e.sequence ≤ maxRank Event.sequence (store.events limits) := by
  obtain ⟨e', he', hle⟩ := h.newest e he
  exact Nat.le_trans hle (le_maxRank ((mem_events h).mpr he'))

end

theorem events_since_some (limits : Limits) (store : NotificationStore) (cursor : EventId) :
    ∃ rest, store.events_since limits (some cursor) =
      ((store.events limits).filter fun e => cursor.sequence < e.sequence) ++ rest ∧
      (rest = [] ∨ ∃ newest, rest = [NotificationStore.resync_event newest] ∧
        cursor = .event cursor.sequence ∧
        (store.events limits ≠ [] → newest = maxRank Event.sequence (store.events limits))) := by
  cases cursor with
  | resync sequence => exact ⟨[], (List.append_nil _).symm, .inl rfl⟩
  | event sequence =>
    unfold NotificationStore.events_since
    dsimp only
    split
    · exact ⟨[], (List.append_nil _).symm, .inl rfl⟩
    · refine ⟨_, rfl, .inr ⟨_, rfl, rfl, ?_⟩⟩
      intro hne
      rw [if_neg hne]

structure ClientKept (store : NotificationStore) (client : Client) : Prop where
  ascending : Ascending placeOf client.received
  known : ∀ e ∈ client.received, ∃ x ∈ store.emitted, e.sequence ≤ x.sequence
  cursor : client.cursor = client.received.getLast?.map fun e => e.id

theorem place_le_cursor (hc : ClientKept store client) (hcursor : client.cursor = some cursor)
    (he : e ∈ client.received) : placeOf e ≤ place cursor := by
  rw [hc.cursor] at hcursor
  obtain ⟨last, hlast, rfl⟩ := Option.map_eq_some_iff.mp hcursor
  obtain ⟨front, hsplit⟩ := List.getLast?_eq_some_iff.mp hlast
  have hascend := hc.ascending
  rw [hsplit] at he hascend
  rcases List.mem_append.mp he with he | he
  · have hlt := (List.pairwise_append.mp hascend).2.2 e he last (List.mem_singleton_self _)
    exact Nat.le_of_lt hlt
  · rw [List.mem_singleton.mp he]
    exact Nat.le_refl _

theorem cursor_le_newest (limits : Limits) (h : JournalsKept store) (hc : ClientKept store client)
    (hcursor : client.cursor = some cursor) : store.events limits ≠ [] ∧
      cursor.sequence ≤ maxRank Event.sequence (store.events limits) := by
  rw [hc.cursor] at hcursor
  obtain ⟨last, hlast, rfl⟩ := Option.map_eq_some_iff.mp hcursor
  obtain ⟨x, hx, hle⟩ := hc.known last (List.mem_of_getLast? hlast)
  obtain ⟨newest, hnewest, _⟩ := h.newest x hx
  refine ⟨List.ne_nil_of_mem ((mem_events h).mpr hnewest), ?_⟩
  exact Nat.le_trans hle (le_newest h hx)

theorem response_ascends (limits : Limits) (h : JournalsKept store)
    (hc : ClientKept store client) (hcursor : client.cursor = some cursor) :
    Ascending placeOf (store.events_since limits (some cursor)) ∧
      ∀ e ∈ store.events_since limits (some cursor), place cursor < placeOf e := by
  obtain ⟨hne, hnewest⟩ := cursor_le_newest limits h hc hcursor
  obtain ⟨rest, hresponse, hrest⟩ := events_since_some limits store cursor
  rw [hresponse]
  have hsub : ((store.events limits).filter fun e => cursor.sequence < e.sequence).Sublist
      (store.events limits) := List.filter_sublist
  have hlater : ∀ e ∈ (store.events limits).filter fun e => cursor.sequence < e.sequence,
      place cursor < placeOf e := by
    intro e he
    obtain ⟨he, hlt⟩ := List.mem_filter.mp he
    rw [decide_eq_true_iff] at hlt
    rw [placeOf_event h he]
    cases cursor <;> simp only [place, EventId.sequence] at hlt ⊢ <;> omega
  have hascend := ascending_places h hsub
  rcases hrest with rfl | ⟨newest, rfl, hevent, hmax⟩
  · rw [List.append_nil]
    exact ⟨hascend, hlater⟩
  · have hplace : placeOf (NotificationStore.resync_event newest) = 2 * newest + 1 := rfl
    have hnewest' := hmax hne
    have hbefore : ∀ e ∈ (store.events limits).filter fun e => cursor.sequence < e.sequence,
        placeOf e < placeOf (NotificationStore.resync_event newest) := by
      intro e he
      have he' := (List.mem_filter.mp he).1
      have hle : e.sequence ≤ maxRank Event.sequence (store.events limits) := le_maxRank he'
      rw [placeOf_event h he', hplace]
      omega
    have hself : ∀ e ∈ [NotificationStore.resync_event newest],
        placeOf (NotificationStore.resync_event newest) ≤ placeOf e := by
      intro e he
      rw [List.mem_singleton.mp he]
    refine ⟨hascend.append (List.pairwise_singleton _ _) hbefore hself, ?_⟩
    intro e he
    rcases List.mem_append.mp he with he | he
    · exact hlater e he
    · have hcursor' : place (.event cursor.sequence) = 2 * cursor.sequence := rfl
      rw [List.mem_singleton.mp he, hplace, hevent, hcursor']
      omega

theorem response_known (h : JournalsKept store) (hc : ClientKept store client) :
    ∀ e ∈ store.events_since limits client.cursor, ∃ x ∈ store.emitted,
      e.sequence ≤ x.sequence := by
  intro e he
  have hevents : ∀ e ∈ store.events limits, ∃ x ∈ store.emitted, e.sequence ≤ x.sequence :=
    fun e he => ⟨e, emitted_of_events h he, Nat.le_refl _⟩
  cases hcursor : client.cursor with
  | none =>
    rw [hcursor] at he
    exact hevents e (mem_of_lastOnes he)
  | some cursor =>
    obtain ⟨hne, _⟩ := cursor_le_newest limits h hc hcursor
    obtain ⟨rest, hresponse, hrest⟩ := events_since_some limits store cursor
    rw [hcursor, hresponse] at he
    rcases List.mem_append.mp he with he | he
    · exact hevents e (List.mem_filter.mp he).1
    · rcases hrest with rfl | ⟨newest, rfl, hevent, hmax⟩
      · exact absurd he List.not_mem_nil
      · obtain ⟨x, hx, hrank⟩ : ∃ x ∈ store.events limits,
            x.sequence = maxRank Event.sequence (store.events limits) := maxRank_mem hne
        refine ⟨x, emitted_of_events h hx, ?_⟩
        rw [List.mem_singleton.mp he, hrank, ← hmax hne]
        exact Nat.le_refl _

theorem received_ascends (h : JournalsKept store) (hc : ClientKept store client) :
    Ascending placeOf (client.received ++ store.events_since limits client.cursor) := by
  cases hcursor : client.cursor with
  | none =>
    have hreceived : client.received = [] := by
      have hlast := hc.cursor
      rw [hcursor] at hlast
      exact List.getLast?_eq_none_iff.mp (Option.map_eq_none_iff.mp hlast.symm)
    rw [hreceived, List.nil_append]
    exact ascending_places h (lastOnes_suffix _ _).sublist
  | some cursor =>
    obtain ⟨hascend, hlater⟩ := response_ascends limits h hc hcursor
    have hbefore : ∀ e ∈ client.received, placeOf e < place cursor + 1 :=
      fun e he => Nat.lt_succ_of_le (place_le_cursor hc hcursor he)
    exact hc.ascending.append hascend hbefore hlater

theorem kept_receive (h : JournalsKept store) (hc : ClientKept store client) :
    ClientKept store (client.receive (store.events_since limits client.cursor)) := by
  refine ⟨received_ascends h hc, ?_, ?_⟩
  · intro e he
    rcases List.mem_append.mp he with he | he
    · exact hc.known e he
    · exact response_known h hc e he
  · unfold Client.receive
    rw [List.getLast?_append]
    cases (store.events_since limits client.cursor).getLast? with
    | none => exact hc.cursor
    | some last => rfl

theorem ClientKept.grows {store' : NotificationStore} (hc : ClientKept store client)
    (hsub : ∀ e ∈ store.emitted, e ∈ store'.emitted) : ClientKept store' client := by
  refine ⟨hc.ascending, ?_, hc.cursor⟩
  intro e he
  obtain ⟨x, hx, hle⟩ := hc.known e he
  exact ⟨x, hsub x hx, hle⟩

theorem emitted_step (c : Journal.Step) {journal : Journal} (he : e ∈ journal.store.emitted) :
    e ∈ (journal.step limits c).store.emitted := by
  cases c with
  | sync_snapshots snapshots stop | sync_invalidations snapshots stop =>
    cases stop with
    | none => exact List.mem_append_left _ he
    | some stop =>
      cases stop with
      | before_events => exact he
      | before_state => exact List.mem_append_left _ he
  | poll => exact he

theorem client_run {steps : List Journal.Step} {journal : Journal} (h : JournalsKept journal.store)
    (hc : ClientKept journal.store journal.client) (hlines : ∀ c ∈ steps, c.one_line) :
    ClientKept (journal.run limits steps).store (journal.run limits steps).client := by
  unfold Journal.run
  induction steps generalizing journal with
  | nil => exact hc
  | cons c steps ih =>
    obtain ⟨hline, hlines⟩ := List.forall_mem_cons.mp hlines
    apply ih (kept_step h hline) _ hlines
    cases c with
    | poll => exact kept_receive h hc
    | sync_snapshots snapshots stop => exact hc.grows fun e => emitted_step _
    | sync_invalidations snapshots stop => exact hc.grows fun e => emitted_step _

theorem lost_after_completion (h : JournalsKept store) (hlost : Lost limits store e)
    {c : Event} (hc : c ∈ store.completion_journal) (hlater : c.sequence < e.sequence) :
    e.kind ≠ .task_completed := by
  intro hkind
  apply hlost.2.1
  apply (mem_events h).mpr
  exact .inl (h.completions_kept e hlost.1 hkind c hc (Nat.le_of_lt hlater))

theorem lost_after_invalidation (h : JournalsKept store) (hlost : Lost limits store e)
    {i : Event} (hi : i ∈ store.invalidation_journal) (hlater : i.sequence < e.sequence) :
    e.kind = .task_completed := by
  rcases h.kinds e hlost.1 with hkind | hkey
  · exact hkind
  · obtain ⟨e', he', hsame, hle⟩ :=
      h.invalidations_kept e hlost.1 hkey i hi (Nat.le_of_lt hlater)
    rcases Nat.lt_or_eq_of_le hle with hlt | heq
    · refine absurd ⟨e', ?_, hkey, hsame, hlt⟩ hlost.2.2
      rw [invalidation_events_eq h]
      exact he'
    · have hself : e = e' := h.emitted.eq_of_rank hlost.1 (h.invalidations e' he').1 heq
      rw [← hself] at he'
      exact absurd ((mem_events h).mpr (.inr he')) hlost.2.1

theorem no_resync_in_events (h : JournalsKept store) (he : e ∈ store.events limits) :
    e.kind ≠ .resync_required := by
  intro hkind
  rcases h.kinds e (emitted_of_events h he) with hcompletion | hkey
  · rw [hkind] at hcompletion
    cases hcompletion
  · unfold Event.invalidation_record_key at hkey
    rw [hkind, if_neg (by decide)] at hkey
    simp at hkey

theorem resumes_iff_served (h : JournalsKept store) (cursor : EventId) :
    Resumes limits store cursor (store.events_since limits (some cursor)) ↔
      Served limits store cursor := by
  have hevents : ∀ e ∈ store.events limits, cursor.sequence < e.sequence →
      e ∈ store.events_since limits (some cursor) := by
    obtain ⟨rest, hresponse, _⟩ := events_since_some limits store cursor
    intro e he hlater
    rw [hresponse]
    exact List.mem_append_left _ (List.mem_filter.mpr ⟨he, decide_eq_true hlater⟩)
  -- a response without a resync speaks for the cursor only if nothing is lost
  have hsilent : store.events_since limits (some cursor) =
        ((store.events limits).filter fun e => cursor.sequence < e.sequence) →
      Resumes limits store cursor (store.events_since limits (some cursor)) →
      ∀ e, Lost limits store e → e.sequence ≤ cursor.sequence := by
    intro hresponse hresumes e hlost
    by_contra hlater
    obtain ⟨r, hr, hkind⟩ := hresumes.2 ⟨e, hlost, by omega⟩
    rw [hresponse] at hr
    exact no_resync_in_events h (List.mem_filter.mp hr).1 hkind
  cases cursor with
  | resync sequence =>
    refine ⟨hsilent rfl, ?_⟩
    intro hserved
    refine ⟨hevents, ?_⟩
    rintro ⟨e, hlost, hlater⟩
    exact absurd (hserved e hlost) (Nat.not_le_of_lt hlater)
  | event sequence =>
    have hresponse : (∃ x ∈ store.events limits, x.id = .event sequence) →
        store.events_since limits (some (.event sequence)) =
          (store.events limits).filter fun e => sequence < e.sequence := by
      rintro ⟨x, hx, hid⟩
      unfold NotificationStore.events_since
      dsimp only
      rw [if_pos]
      rw [List.any_eq_true]
      exact ⟨x, hx, decide_eq_true hid⟩
    have hsequence : ∀ x : Event, x.id = .event sequence → x.sequence = sequence := by
      intro x hid
      unfold Event.sequence
      rw [hid]
      rfl
    constructor
    · intro hresumes
      constructor
      · intro c hc hid e hlost hlater
        rw [completion_events_eq h] at hc
        have hnone := hsilent (hresponse ⟨c, (mem_events h).mpr (.inl hc), hid⟩) hresumes e hlost
        exact absurd hlater (Nat.not_lt_of_le hnone)
      · intro i hi hid e hlost hlater
        rw [invalidation_events_eq h] at hi
        have hnone := hsilent (hresponse ⟨i, (mem_events h).mpr (.inr hi), hid⟩) hresumes e hlost
        exact absurd hlater (Nat.not_lt_of_le hnone)
    · rintro ⟨hcompletion, hinvalidation⟩
      rw [completion_events_eq h] at hcompletion
      rw [invalidation_events_eq h] at hinvalidation
      refine ⟨hevents, ?_⟩
      rintro ⟨e, hlost, hlater⟩
      by_cases hknown : ∃ x ∈ store.events limits, x.id = .event sequence
      · obtain ⟨x, hx, hid⟩ := hknown
        have hbefore : x.sequence < e.sequence := by
          rw [hsequence x hid]
          exact hlater
        rcases (mem_events h).mp hx with hx | hx
        · exact absurd (hcompletion x hx hid e hlost hlater)
            (lost_after_completion h hlost hx hbefore)
        · exact absurd (lost_after_invalidation h hlost hx hbefore)
            (hinvalidation x hx hid e hlost hlater)
      · unfold NotificationStore.events_since
        dsimp only
        rw [if_neg]
        · exact ⟨_, List.mem_append_right _ (List.mem_singleton_self _), rfl⟩
        · intro hany
          obtain ⟨x, hx, hid⟩ := List.any_eq_true.mp hany
          exact hknown ⟨x, hx, of_decide_eq_true hid⟩

/-- In every run on texts of one line a client receives ascending ids, none twice, with the next
response, and that response holds all that follows its cursor, or a resync if something is lost,
exactly if the cursor is served. -/
theorem resumes_exactly_when_served (limits : Limits) (steps : List Journal.Step)
    (hlines : ∀ c ∈ steps, c.one_line) :
    let journal := Journal.start.run limits steps
    let response := journal.store.events_since limits journal.client.cursor
    Ascending placeOf (journal.client.received ++ response) ∧
    ∀ cursor, journal.client.cursor = some cursor →
      (Resumes limits journal.store cursor response ↔ Served limits journal.store cursor) := by
  intro journal response
  have h : JournalsKept journal.store := kept_run kept_empty hlines
  have hstart : ClientKept Journal.start.store Journal.start.client := by
    refine ⟨List.Pairwise.nil, ?_, rfl⟩
    intro e he
    exact absurd he List.not_mem_nil
  have hc : ClientKept journal.store journal.client := client_run kept_empty hstart hlines
  refine ⟨received_ascends h hc, ?_⟩
  intro cursor hcursor
  have hresponse : response = journal.store.events_since limits (some cursor) := by
    rw [← hcursor]
  rw [hresponse]
  exact resumes_iff_served h cursor

section Runs

instance (limits : Limits) (store : NotificationStore) : DecidablePred (Lost limits store) :=
  fun e => inferInstanceAs (Decidable (e ∈ store.emitted ∧ e ∉ store.events limits ∧
    ¬ ∃ e' ∈ store.invalidation_events limits, e.invalidation_record_key.isSome ∧
      e'.invalidation_record_key = e.invalidation_record_key ∧ e.sequence < e'.sequence))

theorem resumes_exactly_when_served_dropped :
    let journal := Journal.start.run ⟨1, 1⟩ conversationDropped
    let response := journal.store.events_since ⟨1, 1⟩ journal.client.cursor
    Ascending placeOf (journal.client.received ++ response) ∧
    ∀ cursor, journal.client.cursor = some cursor →
      (Resumes ⟨1, 1⟩ journal.store cursor response ↔ Served ⟨1, 1⟩ journal.store cursor) :=
  resumes_exactly_when_served ⟨1, 1⟩ conversationDropped (by decide)

/-- With room for one invalidation the first change is lost, and the response to the cursor,
which is still in the journal of completions, does not say so. -/
theorem conversation_lost :
    let journal := Journal.start.run ⟨1, 1⟩ conversationDropped
    journal.client.cursor = some (.event 1) ∧
    ¬ Resumes ⟨1, 1⟩ journal.store (.event 1)
      (journal.store.events_since ⟨1, 1⟩ journal.client.cursor) := by
  intro journal
  have hcursor : journal.client.cursor = some (.event 1) := by decide
  have hlost : ∃ e ∈ journal.store.emitted, Lost ⟨1, 1⟩ journal.store e ∧ 1 < e.sequence := by
    decide
  have hsilent : ∀ r ∈ journal.store.events_since ⟨1, 1⟩ journal.client.cursor,
      r.kind ≠ .resync_required := by
    decide
  refine ⟨hcursor, ?_⟩
  intro hresumes
  obtain ⟨e, _, he⟩ := hlost
  obtain ⟨r, hr, hkind⟩ := hresumes.2 ⟨e, he⟩
  exact hsilent r hr hkind

end Runs

end ClaudeCodeBridge.Analysis.Notification
