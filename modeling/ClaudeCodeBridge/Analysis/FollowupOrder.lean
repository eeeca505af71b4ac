import ClaudeCodeBridge.Model.ActiveFollowups
import ClaudeCodeBridge.Analysis.ExecutionOwnership

/-!
# Follow-ups in order

A history of follow-ups is lawful when every event was `Due`: an adapter is only asked
for the first follow-up whose latest record is accepted, its answer is recorded next
unless the daemon stops, and a follow-up that is no longer accepted gets no record.

The ladder: every access of a call extends a lawful history lawfully (`Outbox`), also
where the daemon stops; a follow-up that is closed stays so (`closed_stays`), and the
order of the injections and who may be injected twice are read off the lawful history.
What a follow-up waits for (`Answered`) is kept by every call that completes.
-/

set_option autoImplicit false

namespace ClaudeCodeBridge.Analysis

open Program
open Model

def recordsOf (h : List FollowupEvent) : List ActiveFollowupRecord :=
  h.filterMap fun e => match e with
    | .appended r => some r
    | _ => none

/-- What the adapters answered for a follow-up. -/
def reportsOf (followup_id : FollowupId) (h : List FollowupEvent) : List ActiveFollowupStatus :=
  h.filterMap fun e => match e with
    | .reported f status => if f = followup_id then some status else none
    | _ => none

@[simp] theorem recordsOf_append (h h' : List FollowupEvent) :
    recordsOf (h ++ h') = recordsOf h ++ recordsOf h' := List.filterMap_append

@[simp] theorem reportsOf_append (f : FollowupId) (h h' : List FollowupEvent) :
    reportsOf f (h ++ h') = reportsOf f h ++ reportsOf f h' := List.filterMap_append

abbrev idsOf (records : List ActiveFollowupRecord) : List FollowupId :=
  records.map fun r => r.followup_id

abbrev waitingIds (records : List ActiveFollowupRecord) : List FollowupId :=
  idsOf (ActiveFollowupStore.accepted records)

section Accepted

variable {records : List ActiveFollowupRecord} {r x : ActiveFollowupRecord}
  {rest : List ActiveFollowupRecord} {f : FollowupId}

theorem mem_accepted :
    r ∈ ActiveFollowupStore.accepted records ↔
      latest? (fun r => r.followup_id) r.followup_id records = some r ∧ r.status = .accepted := by
  unfold ActiveFollowupStore.accepted
  rw [List.mem_filter, decide_eq_true_eq, latest?_eq_some_iff]
  simp

theorem mem_waitingIds :
    f ∈ waitingIds records ↔
      ∃ r, latest? (fun r => r.followup_id) f records = some r ∧ r.status = .accepted := by
  constructor
  · intro hf
    obtain ⟨r, hr, rfl⟩ := List.mem_map.mp hf
    exact ⟨r, mem_accepted.mp hr⟩
  · rintro ⟨r, hr, hstatus⟩
    have hkey := ((latest?_eq_some_iff _).mp hr).2
    refine List.mem_map.mpr ⟨r, mem_accepted.mpr ⟨?_, hstatus⟩, hkey⟩
    rw [hkey]
    exact hr

theorem accepted_append_new (h : r.followup_id ∉ idsOf records) :
    ActiveFollowupStore.accepted (records ++ [r]) = ActiveFollowupStore.accepted records ++
      if r.status = .accepted then [r] else [] := by
  unfold ActiveFollowupStore.accepted
  rw [collapse_append_fresh _ h, List.filter_append]
  by_cases hr : r.status = .accepted
  · simp [hr]
  · simp [hr]

/-- A further record of the first accepted follow-up takes its place, or clears it. -/
theorem accepted_append_first (h : ActiveFollowupStore.accepted records = x :: rest)
    (hr : r.followup_id = x.followup_id) :
    ActiveFollowupStore.accepted (records ++ [r]) =
      if r.status = .accepted then r :: rest else rest := by
  have hx : x ∈ ActiveFollowupStore.accepted records := by
    rw [h]
    exact List.mem_cons_self
  have hlatest := (mem_accepted.mp hx).1
  rw [← hr] at hlatest
  obtain ⟨pre, post, hbefore, hafter⟩ := collapse_append_known _ hlatest
  have hnodup := collapse_nodup (fun r : ActiveFollowupRecord => r.followup_id) records
  unfold ActiveFollowupStore.accepted at h ⊢
  rw [hbefore, List.filter_append] at h
  have hpre : pre.filter (fun r => decide (r.status = .accepted)) = [] := by
    rw [hbefore, List.map_append, List.map_cons, List.nodup_middle, List.nodup_cons] at hnodup
    cases hfilter : pre.filter (fun r => decide (r.status = .accepted)) with
    | nil => rfl
    | cons y ys =>
      rw [hfilter, List.cons_append, List.cons.injEq] at h
      have hy : y ∈ pre := by
        have hy' : y ∈ pre.filter (fun r => decide (r.status = .accepted)) := by
          rw [hfilter]
          exact List.mem_cons_self
        exact List.mem_of_mem_filter hy'
      rw [h.1] at hy
      exact absurd (List.mem_append_left _ (List.mem_map_of_mem hy)) hnodup.1
  have hstatus : x.status = .accepted := (mem_accepted.mp hx).2
  rw [hpre, List.nil_append, List.filter_cons_of_pos (by simp [hstatus]), List.cons.injEq] at h
  rw [hafter, List.filter_append, hpre, List.nil_append]
  by_cases hr' : r.status = .accepted
  · rw [if_pos hr', List.filter_cons_of_pos (by simp [hr']), h.2]
  · rw [if_neg hr', List.filter_cons_of_neg (by simp [hr']), h.2]

theorem waitingIds_append_again (h : r.followup_id ∈ waitingIds records)
    (hr : r.status = .accepted) : waitingIds (records ++ [r]) = waitingIds records := by
  obtain ⟨old, hold, hstatus⟩ := mem_waitingIds.mp h
  obtain ⟨pre, post, hbefore, hafter⟩ := collapse_append_known _ hold
  have hkey := ((latest?_eq_some_iff _).mp hold).2
  unfold waitingIds ActiveFollowupStore.accepted
  rw [hbefore, hafter]
  simp [hstatus, hr, hkey]

end Accepted

/-- The event may follow these. -/
def Due (h : List FollowupEvent) : FollowupEvent → Prop
  | .appended r =>
    (∀ f status, h.getLast? = some (.reported f status) →
      r.followup_id = f ∧ (status = .injected → r.status ≠ .accepted)) ∧
    (r.followup_id ∈ idsOf (recordsOf h) → r.followup_id ∈ waitingIds (recordsOf h))
  | .reported f _ =>
    (∀ f' status, h.getLast? ≠ some (.reported f' status)) ∧
    (waitingIds (recordsOf h)).head? = some f
  | .stopped => True

/-- The follow-up has a record, and its latest one is not accepted. -/
def Closed (f : FollowupId) (h : List FollowupEvent) : Prop :=
  f ∈ idsOf (recordsOf h) ∧ f ∉ waitingIds (recordsOf h)

theorem closed_stays {f : FollowupId} {before after : List FollowupEvent}
    (hh : Lawful Due (before ++ after)) (hf : Closed f before) : Closed f (before ++ after) := by
  refine hh.keeps hf ?_
  intro h e _ hdue hclosed
  cases e with
  | appended r =>
    have hrecords : recordsOf (h ++ [.appended r]) = recordsOf h ++ [r] := by simp [recordsOf]
    have hne : r.followup_id ≠ f := by
      intro heq
      rw [← heq] at hclosed
      exact hclosed.2 (hdue.2 hclosed.1)
    unfold Closed
    rw [hrecords]
    refine ⟨?_, ?_⟩
    · rw [idsOf, List.map_append]
      exact List.mem_append_left _ hclosed.1
    · intro hwaiting
      obtain ⟨old, hold, hstatus⟩ := mem_waitingIds.mp hwaiting
      rw [latest?_append, if_neg hne] at hold
      exact hclosed.2 (mem_waitingIds.mpr ⟨old, hold, hstatus⟩)
  | reported f' status | stopped => simpa [Closed, recordsOf] using hclosed

theorem not_reported_of_closed {f : FollowupId} {status : ActiveFollowupStatus}
    {before after : List FollowupEvent} (hh : Lawful Due (before ++ after))
    (hf : Closed f before) : .reported f status ∉ after := by
  intro hreported
  obtain ⟨first, last, rfl⟩ := List.append_of_mem hreported
  rw [← List.append_assoc] at hh
  have hclosed := closed_stays hh.first hf
  have hhead := (hh.at).2
  exact hclosed.2 (List.mem_of_mem_head? hhead)

/-- **Once injected, a follow-up is not injected again unless the daemon stopped before
the outcome was recorded.** -/
theorem injected_again {f : FollowupId} {status : ActiveFollowupStatus}
    {before after : List FollowupEvent} (hh : Lawful Due (before ++ .reported f .injected :: after))
    (hagain : .reported f status ∈ after) : after.head? = some .stopped := by
  cases after with
  | nil => simp at hagain
  | cons e after =>
    have hsplit : Lawful Due ((before ++ [.reported f .injected]) ++ e :: after) := by
      rw [List.append_assoc]
      exact hh
    have hdue := hsplit.at
    cases e with
    | stopped => rfl
    | reported f' status' => exact absurd (by simp) (hdue.1 f .injected)
    | appended r =>
      obtain ⟨hr, hstatus⟩ := hdue.1 f .injected (by simp)
      have hclosed : Closed f ((before ++ [.reported f .injected]) ++ [.appended r]) := by
        have hrecords : recordsOf ((before ++ [.reported f .injected]) ++ [.appended r]) =
            recordsOf (before ++ [.reported f .injected]) ++ [r] := by simp [recordsOf]
        unfold Closed
        rw [hrecords]
        refine ⟨by simp [hr], ?_⟩
        intro hwaiting
        obtain ⟨old, hold, haccepted⟩ := mem_waitingIds.mp hwaiting
        rw [latest?_append, if_pos hr, Option.some.injEq] at hold
        rw [← hold] at haccepted
        exact hstatus rfl haccepted
      rcases List.mem_cons.mp hagain with hfirst | hlater
      · simp at hfirst
      · rw [List.append_cons] at hsplit
        exact absurd hlater (not_reported_of_closed hsplit hclosed)

/-- **Adapters are asked in the order of the first records.** -/
theorem injected_in_order {f g : FollowupId} {status status' : ActiveFollowupStatus}
    {before after : List FollowupEvent} (hh : Lawful Due (before ++ .reported f status :: after))
    (hg : .reported g status' ∈ after) :
    (idsOf (recordsOf (before ++ .reported f status :: after))).idxOf f ≤
      (idsOf (recordsOf (before ++ .reported f status :: after))).idxOf g := by
  by_contra hlt
  rw [Nat.not_le] at hlt
  have hhead := (hh.at).2
  have hf : f ∈ idsOf (recordsOf before) := by
    obtain ⟨r, hr, _⟩ := mem_waitingIds.mp (List.mem_of_mem_head? hhead)
    have hlatest := (latest?_eq_some_iff _).mp hr
    have hmem : f ∈ (collapse (fun r : ActiveFollowupRecord => r.followup_id)
        (recordsOf before)).map (fun r => r.followup_id) :=
      List.mem_map.mpr ⟨r, hlatest.1, hlatest.2⟩
    exact (mem_keys_collapse _).mp hmem
  have hids : idsOf (recordsOf (before ++ .reported f status :: after)) =
      idsOf (recordsOf before) ++ idsOf (recordsOf (.reported f status :: after)) := by
    simp
  have hf' := List.idxOf_lt_length_of_mem hf
  rw [hids, List.idxOf_append_of_mem hf] at hlt
  have hgknown : g ∈ idsOf (recordsOf before) := by
    by_contra hunknown
    rw [List.idxOf_append_of_notMem hunknown] at hlt
    omega
  rw [List.idxOf_append_of_mem hgknown] at hlt
  -- `g` comes before the first accepted follow-up, so it is closed.
  have hclosed : Closed g before := by
    refine ⟨hgknown, ?_⟩
    intro hwaiting
    have hsorted : (waitingIds (recordsOf before)).Pairwise fun k l =>
        (idsOf (recordsOf before)).idxOf k < (idsOf (recordsOf before)).idxOf l := by
      have hkeys := collapse_keys_sorted (fun r : ActiveFollowupRecord => r.followup_id)
        (recordsOf before)
      exact hkeys.sublist (List.Sublist.map _ List.filter_sublist)
    cases hids : waitingIds (recordsOf before) with
    | nil => simp [hids] at hwaiting
    | cons first rest =>
      rw [hids, List.head?_cons, Option.some.injEq] at hhead
      rw [hids] at hwaiting hsorted
      rw [hhead, List.pairwise_cons] at hsorted
      rcases List.mem_cons.mp hwaiting with hfirst | hrest
      · rw [hfirst, hhead] at hlt
        omega
      · have hle := hsorted.1 g hrest
        omega
  exact not_reported_of_closed hh hclosed (List.mem_cons_of_mem _ hg)

/-- The first record of a follow-up that an adapter was asked for accepts it. -/
theorem first_record_accepts {f : FollowupId} {status : ActiveFollowupStatus}
    {h : List FollowupEvent} (hh : Lawful Due h) (hreported : .reported f status ∈ h) :
    ((recordsOf h).find? fun r => r.followup_id = f).map (fun r => r.status) = some .accepted := by
  obtain ⟨before, after, rfl⟩ := List.append_of_mem hreported
  have hhead := (hh.at).2
  have hwaiting := List.mem_of_mem_head? hhead
  rw [recordsOf_append, List.find?_append]
  have hfirst := hh.first
  clear hreported hh hhead
  -- As long as the follow-up is accepted, so is its first record.
  have hgoal : f ∈ waitingIds (recordsOf before) →
      ((recordsOf before).find? fun r => r.followup_id = f).map (fun r => r.status) =
        some .accepted := by
    clear hwaiting
    induction before using List.reverseRecOn with
    | nil => intro hwaiting; simp [recordsOf, ActiveFollowupStore.accepted] at hwaiting
    | append_singleton before e ih =>
      intro hwaiting
      obtain ⟨hlawful, hdue⟩ := hfirst.last
      cases e with
      | appended r =>
        have hrecords : recordsOf (before ++ [.appended r]) = recordsOf before ++ [r] := by
          simp [recordsOf]
        rw [hrecords] at hwaiting ⊢
        rw [List.find?_append]
        by_cases hknown : f ∈ waitingIds (recordsOf before)
        · have hold := ih hlawful hknown
          obtain ⟨first, hfind, hstatus⟩ := Option.map_eq_some_iff.mp hold
          rw [hfind]
          simpa using hstatus
        · obtain ⟨latest, hlatest, hstatus⟩ := mem_waitingIds.mp hwaiting
          rw [latest?_append] at hlatest
          split at hlatest
          · rename_i hr
            have hunknown : f ∉ idsOf (recordsOf before) := by
              intro hin
              rw [← hr] at hin hknown
              exact hknown (hdue.2 hin)
            have hnone : (recordsOf before).find? (fun r => r.followup_id = f) = none := by
              rw [List.find?_eq_none]
              intro r' hr' heq
              exact hunknown (List.mem_map.mpr ⟨r', hr', of_decide_eq_true heq⟩)
            rw [hnone]
            rw [Option.some.injEq] at hlatest
            rw [← hlatest] at hstatus
            simp [hr, hstatus]
          · exact absurd (mem_waitingIds.mpr ⟨latest, hlatest, hstatus⟩) hknown
      | reported f' status' =>
        have hrecords : recordsOf (before ++ [.reported f' status']) = recordsOf before := by
          simp [recordsOf]
        rw [hrecords] at hwaiting ⊢
        exact ih hlawful hwaiting
      | stopped =>
        have hrecords : recordsOf (before ++ [.stopped]) = recordsOf before := by
          simp [recordsOf]
        rw [hrecords] at hwaiting ⊢
        exact ih hlawful hwaiting
  obtain ⟨first, hfind, hstatus⟩ := Option.map_eq_some_iff.mp (hgoal hwaiting)
  rw [hfind]
  simpa using hstatus

/-- The store holds what the history appended. -/
structure Outbox (w : Followups) : Prop where
  lawful : Lawful Due w.history
  records : w.records = recordsOf w.history
  fresh : ∀ f ∈ idsOf w.records, f < w.next_id

/-- No outcome is outstanding. -/
def Quiet (h : List FollowupEvent) : Prop := ∀ f status, h.getLast? ≠ some (.reported f status)

/-- The adapter itself answered `accepted` for the first accepted follow-up. -/
def Answered (w : Followups) : Prop :=
  ∀ f, (waitingIds w.records).head? = some f → (reportsOf f w.history).getLast? = some .accepted

variable {env : FollowupEnvironment} {w : Followups} {α : Type}

/-- A call that keeps the outbox at every stop and returns in `Q`. -/
abbrev Keeping (p : FollowupM α) (Q : α → Followups → Prop) (w : Followups) : Prop :=
  Prog.Along (fun _ _ => True) Outbox p Q w

theorem keeping_look {find : ℕ → α} {Q : α → Followups → Prop} (hw : Outbox w)
    (hQ : ∀ a, Q a { w with accesses := w.accesses + 1 }) : Keeping (Followups.look find) Q w :=
  fun _ => ⟨⟨hw.lawful, hw.records, hw.fresh⟩, hQ _⟩

theorem outbox_append {r : ActiveFollowupRecord} (hw : Outbox w)
    (hdue : Due w.history (.appended r)) (hfresh : r.followup_id < w.next_id) :
    Outbox (Followups.append r w) := by
  refine ⟨hw.lawful.append hdue, ?_, ?_⟩
  · show w.records ++ [r] = recordsOf (w.history ++ [.appended r])
    rw [hw.records]
    simp [recordsOf]
  · intro f hf
    have hf' : f ∈ idsOf (w.records ++ [r]) := hf
    rw [idsOf, List.map_append, List.mem_append] at hf'
    rcases hf' with hold | hnew
    · exact hw.fresh f hold
    · simp only [List.map_singleton, List.mem_singleton] at hnew
      rw [hnew]
      exact hfresh

@[simp] theorem persisted_followup_id (r : ActiveFollowupRecord) :
    (Followups.persisted r).followup_id = r.followup_id := by
  unfold Followups.persisted
  split <;> rfl

@[simp] theorem persisted_status (r : ActiveFollowupRecord) :
    (Followups.persisted r).status = r.status := by
  unfold Followups.persisted
  split <;> rfl

theorem keeping_persist {r : ActiveFollowupRecord} {Q : ActiveFollowupRecord → Followups → Prop}
    (hw : Outbox w) (hdue : Due w.history (.appended (Followups.persisted r)))
    (hfresh : r.followup_id < w.next_id)
    (hQ : Outbox (Followups.append (Followups.persisted r) w) →
      Q (Followups.persisted r) (Followups.append (Followups.persisted r) w)) :
    Keeping (Followups.persist r) Q w := by
  have happend := outbox_append hw hdue (by rw [persisted_followup_id]; exact hfresh)
  exact fun _ => ⟨happend, hQ happend⟩

theorem keeping_append_event {job : JobRecord} {type : String} {r : ActiveFollowupRecord}
    {Q : Unit → Followups → Prop} (hw : Outbox w)
    (hQ : ∀ events, Q () { w with events := events }) :
    Keeping (Followups.append_event job type r) Q w :=
  fun _ => ⟨⟨hw.lawful, hw.records, hw.fresh⟩, hQ _⟩

theorem no_active_submission_status (x : Executions Unit) (job_id : JobId) :
    (x.no_active_submission job_id).status ≠ .accepted ∧
      (x.no_active_submission job_id).status ≠ .injected := by
  unfold Executions.no_active_submission
  split
  · simp
  · simp

variable (env) in
theorem inject_agrees (request : ActiveFollowupRequest) (x : Executions Unit) :
    (Followups.adapter_report env request x = none →
      (x.inject_active_followup env.adapters request).1.status ≠ .accepted ∧
      (x.inject_active_followup env.adapters request).1.status ≠ .injected) ∧
    ∀ status, Followups.adapter_report env request x = some status →
      (x.inject_active_followup env.adapters request).1.status = status ∨
      (x.inject_active_followup env.adapters request).1.status = .rejected := by
  unfold Followups.adapter_report Executions.inject_active_followup
  cases x.active_object request.job_id with
  | none =>
    exact ⟨fun _ => no_active_submission_status x request.job_id,
      fun status hstatus => by simp at hstatus⟩
  | some submission =>
    simp only
    cases env.adapters.inject x.accesses submission.value.provider with
    | none => simp
    | some inject_fn =>
      simp only
      cases inject_fn submission request (env.adapters.clock x.accesses) with
      | none => simp
      | some result =>
        refine ⟨fun hnone => by simp at hnone, ?_⟩
        intro status hstatus
        rw [Option.map_some, Option.some.injEq] at hstatus
        rw [← hstatus]
        simp only
        cases result.submission with
        | none => exact Or.inl rfl
        | some updated =>
          simp only
          split
          · exact Or.inr rfl
          · exact Or.inl rfl

theorem due_again {r : ActiveFollowupRecord} (hw : Outbox w) (hquiet : Quiet w.history)
    (hwaiting : r.followup_id ∈ waitingIds w.records) : Due w.history (.appended r) := by
  refine ⟨fun f status hlast => absurd hlast (hquiet f status), fun _ => ?_⟩
  rw [← hw.records]
  exact hwaiting

theorem due_new {r : ActiveFollowupRecord} (hw : Outbox w) (hquiet : Quiet w.history)
    (hnew : r.followup_id ∉ idsOf w.records) : Due w.history (.appended r) := by
  refine ⟨fun f status hlast => absurd hlast (hquiet f status), fun hin => ?_⟩
  rw [← hw.records] at hin
  exact absurd hin hnew

theorem quiet_append (r : ActiveFollowupRecord) (w : Followups) :
    Quiet (Followups.append r w).history := by
  intro f status hlast
  simp [Followups.append] at hlast

/-- What became of the first accepted follow-up. -/
structure Outcome (f : FollowupId) (rest : List ActiveFollowupRecord)
    (o : ActiveFollowupRecord) (w : Followups) : Prop where
  outbox : Outbox w
  quiet : Quiet w.history
  followup_id : o.followup_id = f
  waits : o.status = .accepted → ActiveFollowupStore.accepted w.records = o :: rest ∧
    (reportsOf f w.history).getLast? = some .accepted
  ends : o.status ≠ .accepted → ActiveFollowupStore.accepted w.records = rest

theorem Outbox.fresh_of_head {head : ActiveFollowupRecord} {rest : List ActiveFollowupRecord}
    (hw : Outbox w) (hhead : ActiveFollowupStore.accepted w.records = head :: rest) :
    head.followup_id < w.next_id := by
  have hmem : head ∈ ActiveFollowupStore.accepted w.records := by
    rw [hhead]
    exact List.mem_cons_self
  have hlatest := ((latest?_eq_some_iff _).mp (mem_accepted.mp hmem).1).1
  have hkey := List.mem_map_of_mem (f := fun r : ActiveFollowupRecord => r.followup_id) hlatest
  exact hw.fresh _ ((mem_keys_collapse _).mp hkey)

section Injection

variable {record head : ActiveFollowupRecord} {rest : List ActiveFollowupRecord}

theorem keeping_end {r : ActiveFollowupRecord} (hw : Outbox w) (hquiet : Quiet w.history)
    (hhead : ActiveFollowupStore.accepted w.records = head :: rest)
    (hid : r.followup_id = head.followup_id) (hstatus : r.status ≠ .accepted) :
    Keeping (Followups.persist r) (Outcome head.followup_id rest) w := by
  refine keeping_persist hw (due_again hw hquiet ?_) ?_ ?_
  · rw [persisted_followup_id, hid, waitingIds, hhead]
    exact List.mem_map_of_mem List.mem_cons_self
  · rw [hid]
    exact hw.fresh_of_head hhead
  · intro houtbox
    refine ⟨houtbox, quiet_append _ _, by rw [persisted_followup_id, hid], ?_, ?_⟩
    · intro haccepted
      rw [persisted_status] at haccepted
      exact absurd haccepted hstatus
    · intro _
      show ActiveFollowupStore.accepted (w.records ++ [Followups.persisted r]) = rest
      rw [accepted_append_first hhead (by rw [persisted_followup_id, hid]),
        if_neg (by rw [persisted_status]; exact hstatus)]

theorem keeping_end_before_injection (terminal_status : String) (hw : Outbox w)
    (hquiet : Quiet w.history) (hhead : ActiveFollowupStore.accepted w.records = head :: rest)
    (hid : record.followup_id = head.followup_id) :
    Keeping (Followups.end_before_injection env record terminal_status)
      (Outcome head.followup_id rest) w := by
  unfold Followups.end_before_injection
  refine Prog.Along.bind (keeping_look hw fun now => ?_)
  exact keeping_end ⟨hw.lawful, hw.records, hw.fresh⟩ hquiet hhead hid (by simp)

/-- What the service was asked, and what the history says of it. -/
structure Asked (f : FollowupId) (result : ActiveFollowupResult) (w w' : Followups) : Prop where
  outbox : Outbox w'
  records : w'.records = w.records
  next_id : w'.next_id = w.next_id
  history : (w'.history = w.history ∧ result.status ≠ .accepted ∧ result.status ≠ .injected) ∨
    ∃ status, w'.history = w.history ++ [.reported f status] ∧
      (result.status = status ∨ result.status = .rejected)

theorem keeping_inject (request : ActiveFollowupRequest) (hw : Outbox w)
    (hquiet : Quiet w.history) (hhead : ActiveFollowupStore.accepted w.records = head :: rest)
    (hid : request.followup_id = head.followup_id) :
    Keeping (Followups.inject env request) (fun result w' => Asked head.followup_id result w w')
      w := by
  intro _
  obtain ⟨hnone, hsome⟩ := inject_agrees env request (env.execution_service w.accesses)
  cases hreport : Followups.adapter_report env request (env.execution_service w.accesses) with
  | none =>
    have houtbox : Outbox { w with
        accesses := w.accesses + 1
        history := w.history ++ [] } := by
      rw [List.append_nil]
      exact ⟨hw.lawful, hw.records, hw.fresh⟩
    simp only [hreport]
    exact ⟨houtbox, houtbox, rfl, rfl, Or.inl ⟨List.append_nil _, hnone hreport⟩⟩
  | some status =>
    have hdue : Due w.history (.reported request.followup_id status) := by
      refine ⟨hquiet, ?_⟩
      rw [← hw.records, waitingIds, hhead, hid]
      rfl
    have houtbox : Outbox { w with
        accesses := w.accesses + 1
        history := w.history ++ [.reported request.followup_id status] } := by
      refine ⟨hw.lawful.append hdue, ?_, hw.fresh⟩
      rw [hw.records]
      simp [recordsOf]
    simp only [hreport]
    exact ⟨houtbox, houtbox, rfl, rfl, Or.inr ⟨status, by rw [hid]; rfl, hsome status hreport⟩⟩

theorem keeping_outcome {result : ActiveFollowupResult} {updated : ActiveFollowupRecord}
    {w₁ : Followups} (latest : JobRecord) (hw : Outbox w) (hquiet : Quiet w.history)
    (hhead : ActiveFollowupStore.accepted w.records = head :: rest)
    (hasked : Asked head.followup_id result w w₁)
    (hupdated_id : updated.followup_id = head.followup_id)
    (hupdated_status : updated.status = result.status.toFollowupStatus) :
    Keeping (do
        let updated ← Followups.persist updated
        Followups.append_event latest ("active_followup_" ++ updated.status.value) updated
        return updated)
      (Outcome head.followup_id rest) { w₁ with accesses := w₁.accesses + 1 } := by
  -- The outcome may be recorded after what the adapter reported.
  have hdue : Due w₁.history (.appended (Followups.persisted updated)) := by
    refine ⟨?_, fun _ => ?_⟩
    · intro f status hlast
      rcases hasked.history with ⟨hsame, _⟩ | ⟨reported, hhistory, hstatus⟩
      · rw [hsame] at hlast
        exact absurd hlast (hquiet f status)
      · simp only [hhistory, List.getLast?_append, List.getLast?_singleton, Option.some_or,
          Option.some.injEq, FollowupEvent.reported.injEq] at hlast
        refine ⟨by rw [persisted_followup_id, hupdated_id, hlast.1], ?_⟩
        intro hinjected
        rw [persisted_status, hupdated_status]
        rcases hstatus with hstatus | hstatus
        · rw [hstatus, hlast.2, hinjected]
          simp [ActiveFollowupStatus.toFollowupStatus]
        · rw [hstatus]
          simp [ActiveFollowupStatus.toFollowupStatus]
    · rw [← hasked.outbox.records, hasked.records, persisted_followup_id, hupdated_id,
        waitingIds, hhead]
      exact List.mem_map_of_mem List.mem_cons_self
  have hfresh : updated.followup_id < w₁.next_id := by
    rw [hasked.next_id, hupdated_id]
    exact hw.fresh_of_head hhead
  have hout : Outbox { w₁ with accesses := w₁.accesses + 1 } :=
    ⟨hasked.outbox.lawful, hasked.outbox.records, hasked.outbox.fresh⟩
  refine Prog.Along.bind (keeping_persist hout hdue hfresh fun houtbox => ?_)
  refine Prog.Along.bind (keeping_append_event houtbox fun events => ?_)
  refine ⟨⟨houtbox.lawful, houtbox.records, houtbox.fresh⟩, quiet_append _ _,
    by rw [persisted_followup_id, hupdated_id], ?_, ?_⟩
  · intro haccepted
    refine ⟨?_, ?_⟩
    · show ActiveFollowupStore.accepted (w₁.records ++ [Followups.persisted updated]) = _
      rw [hasked.records, accepted_append_first hhead (by
        rw [persisted_followup_id, hupdated_id]), if_pos haccepted]
    · rw [persisted_status, hupdated_status] at haccepted
      have hstatus : result.status = .accepted := by
        cases hresult : result.status <;>
          simp_all [ActiveFollowupStatus.toFollowupStatus]
      rcases hasked.history with ⟨_, hno, _⟩ | ⟨reported, hhistory, hreported⟩
      · exact absurd hstatus hno
      · rcases hreported with hreported | hreported
        · rw [hreported] at hstatus
          show (reportsOf head.followup_id (w₁.history ++ [.appended _])).getLast? = _
          rw [hhistory, hstatus]
          simp [reportsOf]
        · rw [hreported] at hstatus
          simp at hstatus
  · intro hended
    show ActiveFollowupStore.accepted (w₁.records ++ [Followups.persisted updated]) = _
    rw [hasked.records, accepted_append_first hhead (by
      rw [persisted_followup_id, hupdated_id]), if_neg hended]

theorem keeping_inject_accepted (current : JobRecord) (hw : Outbox w) (hquiet : Quiet w.history)
    (hhead : ActiveFollowupStore.accepted w.records = head :: rest)
    (hid : record.followup_id = head.followup_id) :
    Keeping (Followups.inject_accepted env current record) (Outcome head.followup_id rest) w := by
  unfold Followups.inject_accepted
  refine Prog.Along.bind (keeping_look hw fun latest => ?_)
  have hw' : Outbox { w with accesses := w.accesses + 1 } := ⟨hw.lawful, hw.records, hw.fresh⟩
  cases latest with
  | none => exact keeping_end_before_injection "missing" hw' hquiet hhead hid
  | some latest =>
    simp only
    split
    · exact keeping_end_before_injection latest.status.value hw' hquiet hhead hid
    · refine Prog.Along.bind ((keeping_inject _ hw' hquiet hhead hid).mono ?_)
      intro result w₁ hasked
      refine Prog.Along.bind (keeping_look hasked.outbox fun now => ?_)
      exact keeping_outcome latest hw' hquiet hhead hasked hid rfl

theorem keeping_replay_accepted (hw : Outbox w) (hquiet : Quiet w.history)
    (hhead : ActiveFollowupStore.accepted w.records = record :: rest) :
    Keeping (Followups.replay_accepted env record) (Outcome record.followup_id rest) w := by
  unfold Followups.replay_accepted
  refine Prog.Along.bind (keeping_look hw fun current => ?_)
  have hw' : Outbox { w with accesses := w.accesses + 1 } := ⟨hw.lawful, hw.records, hw.fresh⟩
  have hw'' : Outbox { w with accesses := w.accesses + 1 + 1 } := ⟨hw.lawful, hw.records, hw.fresh⟩
  cases current with
  | none =>
    refine Prog.Along.bind (keeping_look hw' fun now => ?_)
    exact keeping_end hw'' hquiet hhead rfl (by simp)
  | some current =>
    simp only
    split
    · refine Prog.Along.bind (keeping_look hw' fun now => ?_)
      exact keeping_end hw'' hquiet hhead rfl (by simp)
    · split
      · refine Prog.Along.bind (keeping_look hw' fun now => ?_)
        exact keeping_end hw'' hquiet hhead rfl (by simp)
      · exact keeping_inject_accepted current hw' hquiet hhead rfl

end Injection

/-- Between two calls; with `ready` every wait is accounted for. -/
structure Idle (ready : Bool) (w : Followups) : Prop where
  outbox : Outbox w
  quiet : Quiet w.history
  answered : ready = true → Answered w

variable {ready : Bool}

theorem keeping_replay_each (records : List ActiveFollowupRecord) (hw : Outbox w)
    (hquiet : Quiet w.history) (hrecords : ActiveFollowupStore.accepted w.records = records) :
    Keeping (Followups.replay_each env records) (fun _ => Idle ready) w := by
  induction records generalizing w with
  | nil =>
    refine ⟨hw, hquiet, ?_⟩
    intro _ f hf
    rw [waitingIds, hrecords] at hf
    simp at hf
  | cons record rest ih =>
    refine Prog.Along.bind ((keeping_replay_accepted hw hquiet hrecords).mono ?_)
    intro o w' ho
    by_cases haccepted : o.status = .accepted
    · rw [if_pos haccepted]
      obtain ⟨hwaiting, hreport⟩ := ho.waits haccepted
      refine ⟨ho.outbox, ho.quiet, ?_⟩
      intro _ f hf
      rw [waitingIds, hwaiting] at hf
      simp only [idsOf, List.map_cons, List.head?_cons, Option.some.injEq] at hf
      rw [← hf, ho.followup_id]
      exact hreport
    · rw [if_neg haccepted]
      refine Prog.Along.bind ((ih ho.outbox ho.quiet (ho.ends haccepted)).mono ?_)
      exact fun _ w'' hidle => hidle

theorem keeping_replay (hservice : env.has_execution_service = true) (hw : Outbox w)
    (hquiet : Quiet w.history) :
    Keeping (Followups.replay_accepted_followups env) (fun _ => Idle ready) w := by
  unfold Followups.replay_accepted_followups
  simp only [hservice, Bool.not_true, Bool.false_eq_true, if_false]
  refine Prog.Along.withLock ?_
  refine Prog.Along.bind (Prog.along_read hw ?_)
  exact keeping_replay_each _ hw hquiet rfl

section Request

variable {r : ActiveFollowupRecord}

theorem keeping_refuse (hw : Idle ready w) (hfresh : r.followup_id < w.next_id)
    (hnew : r.followup_id ∉ idsOf w.records) (hstatus : r.status ≠ .accepted) :
    Keeping (Followups.persist r) (fun _ => Idle ready) w := by
  refine keeping_persist hw.outbox (due_new hw.outbox hw.quiet ?_) hfresh fun houtbox => ?_
  · rw [persisted_followup_id]
    exact hnew
  · refine ⟨houtbox, quiet_append _ _, ?_⟩
    intro hready f hf
    have hsame : waitingIds (w.records ++ [Followups.persisted r]) = waitingIds w.records := by
      rw [waitingIds, accepted_append_new (by rw [persisted_followup_id]; exact hnew),
        if_neg (by rw [persisted_status]; exact hstatus), List.append_nil]
    have hf' : (waitingIds (w.records ++ [Followups.persisted r])).head? = some f := hf
    rw [hsame] at hf'
    show (reportsOf f (w.history ++ [.appended _])).getLast? = _
    rw [reportsOf_append]
    simpa [reportsOf] using hw.answered hready f hf'

theorem keeping_again (hw : Idle ready w) (hwaiting : r.followup_id ∈ waitingIds w.records)
    (hstatus : r.status = .accepted) (hfresh : r.followup_id < w.next_id) :
    Keeping (Followups.persist r) (fun _ => Idle ready) w := by
  have hwaiting' : (Followups.persisted r).followup_id ∈ waitingIds w.records := by
    rw [persisted_followup_id]
    exact hwaiting
  refine keeping_persist hw.outbox (due_again hw.outbox hw.quiet hwaiting') hfresh
    fun houtbox => ?_
  refine ⟨houtbox, quiet_append _ _, ?_⟩
  intro hready f hf
  have hf' : (waitingIds (w.records ++ [Followups.persisted r])).head? = some f := hf
  rw [waitingIds_append_again hwaiting' (by rw [persisted_status]; exact hstatus)] at hf'
  show (reportsOf f (w.history ++ [.appended _])).getLast? = _
  rw [reportsOf_append]
  simpa [reportsOf] using hw.answered hready f hf'

theorem keeping_request_accepted (current : JobRecord) (capability : ActiveFollowupCapability)
    (provider_turn_ref : String) (hw : Idle ready w) (hfresh : r.followup_id < w.next_id)
    (hnew : r.followup_id ∉ idsOf w.records) :
    Keeping (Followups.request_accepted env current r capability provider_turn_ref)
      (fun _ => Idle ready) w := by
  unfold Followups.request_accepted
  generalize haccepted : ({ r with
    status := FollowupStatus.accepted
    reason := "durable_outbox_accepted"
    mechanism := capability.mechanism
    expected_provider_turn_ref := some provider_turn_ref
    provider_turn_ref := some provider_turn_ref } : ActiveFollowupRecord) = accepted
  have hid : accepted.followup_id = r.followup_id := by rw [← haccepted]
  have hstatus : accepted.status = .accepted := by rw [← haccepted]
  have hkept : Followups.persisted accepted = accepted := by
    unfold Followups.persisted
    rw [if_pos hstatus]
  have hnew' : accepted.followup_id ∉ idsOf w.records := by
    rw [hid]
    exact hnew
  refine Prog.Along.bind (keeping_persist hw.outbox (due_new hw.outbox hw.quiet ?_) ?_
    fun houtbox => ?_)
  · rw [hkept]
    exact hnew'
  · rw [hid]
    exact hfresh
  rw [hkept] at houtbox ⊢
  have hrecords : ActiveFollowupStore.accepted (w.records ++ [accepted]) =
      ActiveFollowupStore.accepted w.records ++ [accepted] := by
    rw [accepted_append_new hnew', if_pos hstatus]
  refine Prog.Along.bind (keeping_append_event houtbox fun events => ?_)
  have hout : Outbox { Followups.append accepted w with events := events } :=
    ⟨houtbox.lawful, houtbox.records, houtbox.fresh⟩
  refine Prog.Along.bind (Prog.along_read hout ?_)
  split
  · rename_i hwaits
    obtain ⟨pending, hpending, hne⟩ := List.any_eq_true.mp hwaits
    -- An earlier follow-up stays the first.
    have hanswered : ready = true →
        Answered { Followups.append accepted w with events := events } := by
      intro hready f hf
      have hf' : (waitingIds (w.records ++ [accepted])).head? = some f := hf
      have hpending' : pending ∈ ActiveFollowupStore.accepted (w.records ++ [accepted]) := hpending
      rw [hrecords] at hpending'
      have hfirst : (waitingIds w.records).head? = some f := by
        cases hold : ActiveFollowupStore.accepted w.records with
        | nil =>
          rw [hold, List.nil_append, List.mem_singleton] at hpending'
          rw [hpending'] at hne
          simp at hne
        | cons first rest =>
          rw [waitingIds, hrecords, hold] at hf'
          rw [waitingIds, hold]
          exact hf'
      show (reportsOf f (w.history ++ [.appended _])).getLast? = _
      rw [reportsOf_append]
      simpa [reportsOf] using hw.answered hready f hfirst
    have hidle : ∀ n,
        Idle ready { Followups.append accepted w with events := events, accesses := n } :=
      fun n => ⟨⟨hout.lawful, hout.records, hout.fresh⟩, quiet_append _ _, hanswered⟩
    refine Prog.Along.bind (keeping_look hout fun now => ?_)
    refine keeping_again (hidle _) ?_ hstatus ?_
    · show accepted.followup_id ∈ waitingIds (w.records ++ [accepted])
      rw [waitingIds, hrecords]
      simp
    · show accepted.followup_id < w.next_id
      rw [hid]
      exact hfresh
  · rename_i hwaits
    have hnone : ActiveFollowupStore.accepted w.records = [] := by
      cases hold : ActiveFollowupStore.accepted w.records with
      | nil => rfl
      | cons first rest =>
        refine absurd ?_ hwaits
        refine List.any_eq_true.mpr ⟨first, ?_, ?_⟩
        · show first ∈ ActiveFollowupStore.accepted (w.records ++ [accepted])
          rw [hrecords, hold]
          simp
        · have hfirst : first.followup_id ∈ idsOf w.records := by
            have hmem : first ∈ ActiveFollowupStore.accepted w.records := by
              rw [hold]
              exact List.mem_cons_self
            have hlatest := ((latest?_eq_some_iff _).mp (mem_accepted.mp hmem).1).1
            have hkey := List.mem_map_of_mem
              (f := fun r : ActiveFollowupRecord => r.followup_id) hlatest
            exact (mem_keys_collapse _).mp hkey
          rw [decide_eq_true_eq]
          intro heq
          rw [heq] at hfirst
          exact hnew' hfirst
    rw [hnone, List.nil_append] at hrecords
    have hinject : Keeping (Followups.inject_accepted env current accepted)
        (Outcome accepted.followup_id []) { Followups.append accepted w with events := events } :=
      keeping_inject_accepted current hout (quiet_append _ _) hrecords rfl
    refine hinject.mono ?_
    intro o w' ho
    refine ⟨ho.outbox, ho.quiet, ?_⟩
    intro _ f hf
    by_cases hoaccepted : o.status = .accepted
    · obtain ⟨hwaiting, hreport⟩ := ho.waits hoaccepted
      rw [waitingIds, hwaiting] at hf
      simp only [idsOf, List.map_cons, List.head?_cons, Option.some.injEq] at hf
      rw [← hf, ho.followup_id]
      exact hreport
    · rw [waitingIds, ho.ends hoaccepted] at hf
      simp at hf

theorem refused_status (p : Prop) [Decidable p] :
    (if p then FollowupStatus.terminal else .rejected) ≠ .accepted := by
  split
  · simp
  · simp

theorem keeping_request_of_job (current : JobRecord) (hw : Idle ready w)
    (hfresh : r.followup_id < w.next_id) (hnew : r.followup_id ∉ idsOf w.records)
    (hstatus : r.status ≠ .accepted) :
    Keeping (Followups.request_of_job env current r) (fun _ => Idle ready) w := by
  have hlooked : ∀ n, Idle ready { w with accesses := n } := fun n =>
    ⟨⟨hw.outbox.lawful, hw.outbox.records, hw.outbox.fresh⟩, hw.quiet, hw.answered⟩
  unfold Followups.request_of_job
  split
  · exact keeping_refuse hw hfresh hnew (by simp)
  · split
    · exact keeping_refuse hw hfresh hnew hstatus
    · refine Prog.Along.bind (keeping_look hw.outbox fun active_job_id => ?_)
      split
      · exact keeping_refuse (hlooked _) hfresh hnew hstatus
      · split
        · exact keeping_refuse (hlooked _) hfresh hnew hstatus
        · refine Prog.Along.bind (keeping_look (hlooked _).outbox fun capability => ?_)
          simp only
          split
          · exact keeping_refuse (hlooked _) hfresh hnew (refused_status _)
          · exact keeping_request_accepted current capability _ (hlooked _) hfresh hnew

theorem keeping_request (job_id : JobId) (message : String) (hw : Idle ready w) :
    Keeping (Followups.request_active_followup env job_id message) (fun _ => Idle ready) w := by
  have hlooked : ∀ n, Idle ready { w with accesses := n } := fun n =>
    ⟨⟨hw.outbox.lawful, hw.outbox.records, hw.outbox.fresh⟩, hw.quiet, hw.answered⟩
  unfold Followups.request_active_followup
  split
  · exact hw
  · refine Prog.Along.withLock ?_
    refine Prog.Along.bind (keeping_look hw.outbox fun current => ?_)
    refine Prog.Along.bind (keeping_look (hlooked _).outbox fun created_at => ?_)
    -- The new id is above all that have records.
    have hnew : w.next_id ∉ idsOf w.records := fun hin =>
      absurd (hw.outbox.fresh _ hin) (lt_irrefl _)
    have hgiven : Idle ready { w with accesses := w.accesses + 1 + 1, next_id := w.next_id + 1 } :=
      ⟨⟨hw.outbox.lawful, hw.outbox.records, fun f hf => Nat.lt_succ_of_lt (hw.outbox.fresh f hf)⟩,
        hw.quiet, hw.answered⟩
    refine Prog.Along.bind (fun _ => ⟨hgiven.outbox, ?_⟩)
    refine Prog.Along.bind (Prog.along_read hgiven.outbox ?_)
    simp only
    cases current with
    | none =>
      refine Prog.Along.bind ((keeping_refuse hgiven (Nat.lt_succ_self _) hnew (by simp)).mono ?_)
      exact fun _ w' hw' => hw'
    | some current =>
      refine Prog.Along.bind ((keeping_request_of_job current hgiven (Nat.lt_succ_self _) hnew
        (by simp)).mono ?_)
      exact fun _ w' hw' => hw'

end Request

/-- A replay ran to its end after the last stop, if there was one. -/
def replayed (steps : List Followups.Step) : Bool :=
  steps.foldl
    (fun ready step => match step with
      | (_, some _) => false
      | (.replay_accepted_followups, none) => true
      | (.request_active_followup _ _, none) => ready)
    true

variable (env) in
theorem keeping_exec (call : Followups.Call) (hw : Idle ready w) :
    Keeping (Followups.exec env call) (fun _ => Idle ready) w := by
  cases call with
  | request_active_followup job_id message =>
    refine Prog.Along.bind ((keeping_request job_id message hw).mono ?_)
    exact fun _ w' hw' => hw'
  | replay_accepted_followups =>
    cases hservice : env.has_execution_service with
    | true =>
      have hreplay : Keeping (Followups.replay_accepted_followups env) (fun _ => Idle ready) w :=
        keeping_replay hservice hw.outbox hw.quiet
      refine Prog.Along.bind (hreplay.mono ?_)
      exact fun _ w' hw' => hw'
    | false =>
      unfold Followups.exec Followups.replay_accepted_followups
      simp only [hservice, Bool.not_false, if_true]
      exact hw

theorem returns_of_empty {Q : α → Followups → Prop} {p : FollowupM α} (hw : Outbox w)
    (h : Keeping p Q w) : ∃ a, Q a (p.run w).2 := by
  obtain ⟨_, hreturns⟩ := h.run hw
  cases hrun : (p.run w).1 with
  | ok a => exact ⟨a, hreturns a hrun⟩
  | error e => exact e.elim

theorem idle_stopped (call : Followups.Call) (n : ℕ) (hw : Idle ready w) :
    Idle false (Followups.perform env w (call, some n)) := by
  have houtbox := (keeping_exec env call hw).stopAfter hw.outbox n (fun _ _ => trivial)
  refine ⟨⟨houtbox.lawful.append trivial, ?_, houtbox.fresh⟩, ?_,
    fun hfalse => absurd hfalse (by simp)⟩
  · show (Prog.stopAfter n (Followups.exec env call) w).records = recordsOf (_ ++ [.stopped])
    rw [houtbox.records]
    simp [recordsOf]
  · intro f status hlast
    simp [Followups.perform] at hlast

theorem idle_completed (call : Followups.Call) (hw : Idle ready w) :
    Idle ready (Followups.perform env w (call, none)) := by
  obtain ⟨_, hidle⟩ := returns_of_empty hw.outbox (keeping_exec env call hw)
  exact hidle

theorem idle_replayed (hservice : env.has_execution_service = true) (hw : Idle ready w) :
    Idle true (Followups.perform env w (.replay_accepted_followups, none)) := by
  have hreplay : Keeping (Followups.exec env .replay_accepted_followups) (fun _ => Idle true)
      w := by
    have hends : Keeping (Followups.replay_accepted_followups env) (fun _ => Idle true) w :=
      keeping_replay hservice hw.outbox hw.quiet
    refine Prog.Along.bind (hends.mono ?_)
    exact fun _ w' hw' => hw'
  obtain ⟨_, hidle⟩ := returns_of_empty hw.outbox hreplay
  exact hidle

theorem idle_init : Idle true Followups.init := by
  refine ⟨⟨lawful_nil, rfl, by simp [Followups.init]⟩, ?_, ?_⟩
  · intro f status hlast
    simp [Followups.init] at hlast
  · intro _ f hf
    simp [Followups.init, ActiveFollowupStore.accepted] at hf

variable (env) in
theorem idle_after (steps : List Followups.Step) :
    ∃ ready, Idle ready (Followups.after env steps) ∧
      (env.has_execution_service = true → ready = replayed steps) := by
  induction steps using List.reverseRecOn with
  | nil => exact ⟨true, idle_init, fun _ => rfl⟩
  | append_singleton steps step ih =>
    obtain ⟨ready, hidle, hready⟩ := ih
    unfold Followups.after replayed at *
    rw [List.foldl_append, List.foldl_append, List.foldl_cons, List.foldl_nil, List.foldl_cons,
      List.foldl_nil]
    obtain ⟨call, stop⟩ := step
    cases stop with
    | some n => exact ⟨false, idle_stopped call n hidle, fun _ => rfl⟩
    | none =>
      cases call with
      | request_active_followup job_id message =>
        exact ⟨ready, idle_completed _ hidle, hready⟩
      | replay_accepted_followups =>
        cases hservice : env.has_execution_service with
        | true => exact ⟨true, idle_replayed hservice hidle, fun _ => rfl⟩
        | false => exact ⟨ready, idle_completed _ hidle, fun hfalse => by simp at hfalse⟩

/-- **Follow-ups are injected in order, and twice only around a stop.**  In every run of
requests and replays on any jobs, with stops after any access: a follow-up that an
adapter reported injected is handed to an adapter again only if the daemon stopped right
after that report, before its outcome was appended; the injections follow the order in
which the follow-ups were accepted, their first records; and once a replay has run to its
end after the last stop, a follow-up waits only while the first accepted follow-up, of
whatever job, is one that its adapter itself answered `accepted`.

SOURCE: lib/ccbd/services/dispatcher_runtime/active_followups.py:22-191, 228-277,
lib/ccbd/active_followups.py:96-142, lib/provider_execution/service.py:233-280 -/
theorem followups_in_order (env : FollowupEnvironment) (steps : List Followups.Step)
    (w : Followups) (hw : w = Followups.after env steps) :
    (∀ before f status after, w.history = before ++ .reported f .injected :: after →
      .reported f status ∈ after → after.head? = some .stopped) ∧
    (∀ before f g after, w.history = before ++ .reported f .injected :: after →
      .reported g .injected ∈ after → (idsOf w.records).idxOf f ≤ (idsOf w.records).idxOf g) ∧
    (∀ f, .reported f .injected ∈ w.history →
      (w.records.find? fun r => r.followup_id = f).map (fun r => r.status) = some .accepted) ∧
    (env.has_execution_service = true → replayed steps = true →
      ∀ waiting ∈ ActiveFollowupStore.accepted w.records, ∃ first,
        (ActiveFollowupStore.accepted w.records).head? = some first ∧
        (reportsOf first.followup_id w.history).getLast? = some .accepted) := by
  obtain ⟨ready, hidle, hready⟩ := idle_after env steps
  rw [← hw] at hidle
  have hlawful := hidle.outbox.lawful
  refine ⟨?_, ?_, ?_, ?_⟩
  · intro before f status after heq hagain
    rw [heq] at hlawful
    exact injected_again hlawful hagain
  · intro before f g after heq hg
    rw [hidle.outbox.records]
    rw [heq] at hlawful ⊢
    exact injected_in_order hlawful hg
  · intro f hreported
    rw [hidle.outbox.records]
    exact first_record_accepts hlawful hreported
  · intro hservice hreplayed waiting hwaiting
    have hanswered := hidle.answered ((hready hservice).trans hreplayed)
    cases hlist : ActiveFollowupStore.accepted w.records with
    | nil =>
      rw [hlist] at hwaiting
      simp at hwaiting
    | cons first rest =>
      refine ⟨first, rfl, hanswered first.followup_id ?_⟩
      rw [waitingIds, hlist]
      rfl

def followedJob (job_id : JobId) : JobRecord :=
  { runningJob .ask with job_id := job_id, agent_name := job_id }

def followedExecutions : Executions Unit :=
  ((Executions.init (some Dict.empty)).set_active 0 ⟨0, runningSubmission⟩).set_active 1
    ⟨1, { runningSubmission with job_id := 1 }⟩

/-- The adapter answers follow-ups of job 0 with `status`, those of job 1 with `injected`. -/
def followedEnvironment (status : ActiveFollowupStatus) : FollowupEnvironment where
  clock n := n
  get_job _ job_id := if job_id ≤ 1 then some (followedJob job_id) else none
  active_job_for _ agent_name := some agent_name
  has_execution_service := true
  execution_service _ := followedExecutions
  adapters := { itemEnvironment with
    inject := fun _ _ => some fun submission request _ =>
      some ⟨some submission, if request.job_id = 0 then status else .injected, "", "steer", none⟩ }
  capability _ _ := some fun _ => some ⟨true, "steer", some "turn", ""⟩

def lostOutcome : Followups :=
  Followups.after (followedEnvironment .injected)
    [(.request_active_followup 0 "more", some 12), (.replay_accepted_followups, none)]

/-- Job 0 has a follow-up that its adapter keeps accepted; then one for job 1 comes. -/
def waitingForOther : Followups :=
  Followups.after (followedEnvironment .accepted)
    [(.request_active_followup 0 "more", none), (.request_active_followup 1 "more", none),
      (.replay_accepted_followups, none)]

/-- **A follow-up can be reported injected twice, and can wait for another job's.**  The
daemon stops between the first report and the append of its outcome; and while the
follow-up of job 0 stays accepted, that of job 1 is not sent, not even by a replay.

SOURCE: lib/ccbd/services/dispatcher_runtime/active_followups.py:121-134, 185-190, 242-263 -/
theorem followup_twice_and_waiting :
    (reportsOf 0 lostOutcome.history).count .injected = 2 ∧
      waitingIds waitingForOther.records = [0, 1] ∧
      reportsOf 1 waitingForOther.history = [] ∧
      ∀ n, ((followedEnvironment .accepted).get_job n 1).map (fun job => job.status) =
        some .running := by
  refine ⟨by decide, by decide, by decide, fun _ => rfl⟩

/-- What holds of these two runs. -/
theorem followups_in_order_lostOutcome :
    (lostOutcome.history.drop 2).head? = some .stopped ∧
      (lostOutcome.records.find? fun r => r.followup_id = 0).map (fun r => r.status) =
        some .accepted ∧
      ∀ waiting ∈ ActiveFollowupStore.accepted waitingForOther.records, ∃ first,
        (ActiveFollowupStore.accepted waitingForOther.records).head? = some first ∧
        (reportsOf first.followup_id waitingForOther.history).getLast? = some .accepted := by
  obtain ⟨hagain, _, hfirst, _⟩ := followups_in_order (followedEnvironment .injected) _
    lostOutcome rfl
  obtain ⟨_, _, _, hwaits⟩ := followups_in_order (followedEnvironment .accepted) _
    waitingForOther rfl
  refine ⟨?_, hfirst 0 (by decide), hwaits rfl (by decide)⟩
  exact hagain (lostOutcome.history.take 1) 0 .injected (lostOutcome.history.drop 2) rfl
    (by decide)

end ClaudeCodeBridge.Analysis
