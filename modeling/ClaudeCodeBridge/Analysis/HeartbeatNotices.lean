import Mathlib.Data.List.DropRight
import ClaudeCodeBridge.Program.Outcomes
import ClaudeCodeBridge.Model.Heartbeats

/-!
# Notices of heartbeats

An evaluation resets, issues the first notice, issues one more, or does nothing
(`evaluate_heartbeat_cases`).  The state counts the notices since the last reset and knows the last
of them (`Counts`), so that between two resets the first notice is the only one that enters, the
notices are an interval apart, and there are no more of them than the policy allows
(`heartbeat_notices_disciplined`).
-/

set_option autoImplicit false

namespace ClaudeCodeBridge.Analysis.Heartbeat

open Program
open Model.Heartbeat
open Model.Relay (strip)

variable {stamps : Timestamps} {policy : HeartbeatPolicy} {subject : Subject}
  {state base : HeartbeatState} {result : HeartbeatState × HeartbeatDecision}
  {progress_at now : Text}

theorem filled_ok {field : String} {value : Text} {u : Unit} :
    filled field value = .ok u ↔ strip value ≠ [] := by
  unfold filled
  split
  · rename_i h
    simp [h]
  · rename_i h
    simp [h]

/-- The fields of a state that may not be blank. -/
structure Filled (state : HeartbeatState) : Prop where
  subject_kind : strip state.subject_kind ≠ []
  subject_id : strip state.subject_id ≠ []
  owner : strip state.owner ≠ []
  last_progress_at : strip state.last_progress_at ≠ []
  updated_at : strip state.updated_at ≠ []

theorem post_init_iff {checked : HeartbeatState} :
    state.post_init = .ok checked ↔ checked = state ∧ Filled state := by
  unfold HeartbeatState.post_init
  simp only [bind_ok, filled_ok, pure_ok, exists_and_left, exists_const]
  constructor
  · rintro ⟨hkind, hid, howner, hprogress, hupdated, rfl⟩
    exact ⟨rfl, hkind, hid, howner, hprogress, hupdated⟩
  · rintro ⟨rfl, hkind, hid, howner, hprogress, hupdated⟩
    exact ⟨hkind, hid, howner, hprogress, hupdated, rfl⟩

theorem post_init_ok {checked : HeartbeatState} (h : state.post_init = .ok checked) :
    checked = state := (post_init_iff.mp h).1

/-- What an evaluation does to the state that it is given, or begins with. -/
inductive Evaluates (stamps : Timestamps) (policy : HeartbeatPolicy) (progress_at now : Text)
    (state next_state : HeartbeatState) (action : HeartbeatAction) : Prop where
  | reset (hadvanced : progress_advanced stamps progress_at state.last_progress_at = true)
      (haction : action = .reset) (hcount : next_state.notice_count = 0)
      (hnotice : next_state.last_notice_at = none)
  | idle (hquiet : progress_advanced stamps progress_at state.last_progress_at = true →
        heartbeat_active state = false)
      (haction : action = .idle) (hcount : next_state.notice_count = state.notice_count)
      (hnotice : next_state.last_notice_at = state.last_notice_at)
  | enter (hquiet : progress_advanced stamps progress_at state.last_progress_at = true →
        heartbeat_active state = false)
      (hsilence : policy.silence_start_after_s ≤ silence_seconds stamps progress_at now)
      (hfirst : should_enter_heartbeat state = true)
      (haction : action = .enter) (hcount : next_state.notice_count = 1)
      (hnotice : next_state.last_notice_at = some now)
  | repeat_ (hquiet : progress_advanced stamps progress_at state.last_progress_at = true →
        heartbeat_active state = false)
      (hsilence : policy.silence_start_after_s ≤ silence_seconds stamps progress_at now)
      (hmore : should_enter_heartbeat state = false)
      (hlimit : notice_limit_reached state policy = false)
      (helapsed : policy.repeat_interval_s ≤ since_last_notice_seconds stamps state now)
      (haction : action = .repeat_) (hcount : next_state.notice_count = state.notice_count + 1)
      (hnotice : next_state.last_notice_at = some now)

theorem evaluate_silence_cases (state : HeartbeatState)
    (hquiet : progress_advanced stamps progress_at state.last_progress_at = true →
      heartbeat_active state = false)
    (hcount : base.notice_count = state.notice_count)
    (hnotice : base.last_notice_at = state.last_notice_at)
    (h : evaluate_silence stamps policy progress_at now base = .ok result) :
    Evaluates stamps policy progress_at now state result.1 result.2.action ∧
      result.1.last_progress_at = base.last_progress_at := by
  have hfirst : should_enter_heartbeat base = should_enter_heartbeat state := by
    unfold should_enter_heartbeat
    rw [hcount, hnotice]
  have hlimit : notice_limit_reached base policy = notice_limit_reached state policy := by
    unfold notice_limit_reached
    rw [hcount]
  have hsince : since_last_notice_seconds stamps base now =
      since_last_notice_seconds stamps state now := by
    unfold since_last_notice_seconds
    rw [hnotice]
  unfold evaluate_silence at h
  simp only at h
  split at h
  · cases h
    exact ⟨.idle hquiet rfl hcount hnotice, rfl⟩
  · rename_i hsilence
    rw [not_lt] at hsilence
    split at h
    · rename_i henter
      rw [hfirst] at henter
      obtain ⟨next_state, hnext, h⟩ := bind_ok.mp h
      cases h
      have heq := post_init_ok hnext
      subst heq
      exact ⟨.enter hquiet hsilence henter rfl rfl rfl, rfl⟩
    · rename_i henter
      rw [hfirst, Bool.not_eq_true] at henter
      split at h
      · cases h
        exact ⟨.idle hquiet rfl hcount hnotice, rfl⟩
      · rename_i hmore
        rw [hlimit, Bool.not_eq_true] at hmore
        split at h
        · cases h
          exact ⟨.idle hquiet rfl hcount hnotice, rfl⟩
        · rename_i helapsed
          unfold repeat_interval_not_elapsed at helapsed
          rw [decide_eq_true_iff, not_lt, hsince] at helapsed
          obtain ⟨next_state, hnext, h⟩ := bind_ok.mp h
          cases h
          have heq := post_init_ok hnext
          subst heq
          refine ⟨.repeat_ hquiet hsilence henter hmore helapsed rfl ?_ rfl, rfl⟩
          exact congrArg (· + 1) hcount

def Begins (progress_at : Text) (given : Option HeartbeatState) (state : HeartbeatState) : Prop :=
  given = some state ∨
    given = none ∧ state.last_progress_at = progress_at ∧ state.notice_count = 0 ∧
      state.last_notice_at = none

/-- An evaluation resets, issues the first notice or one more, or does nothing; it records the
progress that it has seen. -/
theorem evaluate_heartbeat_cases {observed : Text} {given : Option HeartbeatState}
    (h : evaluate_heartbeat stamps policy subject observed now given = .ok result) :
    ∃ progress_at state, progress_timestamp observed now = .ok progress_at ∧
      Begins progress_at given state ∧
      Evaluates stamps policy progress_at now state result.1 result.2.action ∧
      result.1.last_progress_at = progress_at := by
  unfold evaluate_heartbeat at h
  obtain ⟨progress_at, hprogress, h⟩ := bind_ok.mp h
  obtain ⟨current, hcurrent, h⟩ := bind_ok.mp h
  obtain ⟨base, hbase, h⟩ := bind_ok.mp h
  have hbegins : Begins progress_at given current := by
    cases given with
    | some state =>
      cases hcurrent
      exact Or.inl rfl
    | none =>
      have heq := post_init_ok hcurrent
      subst heq
      exact Or.inr ⟨rfl, rfl, rfl, rfl⟩
  have heq := post_init_ok hbase
  subst heq
  refine ⟨progress_at, current, hprogress, hbegins, ?_⟩
  split at h
  · rename_i hreset
    rw [Bool.and_eq_true] at hreset
    obtain ⟨next_state, hnext, h⟩ := bind_ok.mp h
    cases h
    have hnext := post_init_ok hnext
    subst hnext
    exact ⟨.reset hreset.1 rfl rfl rfl, rfl⟩
  · rename_i hreset
    rw [Bool.and_eq_true, not_and, Bool.not_eq_true] at hreset
    obtain ⟨recorded, hrecorded, h⟩ := bind_ok.mp h
    have heq := post_init_ok hrecorded
    subst heq
    exact evaluate_silence_cases current hreset (by rfl) (by rfl) h

/-- A reading whose times can be told, of progress that is not in the future. -/
structure Timely (stamps : Timestamps) (reading : Reading) (seconds : ℚ) : Prop where
  nonneg : 0 ≤ seconds
  between : seconds_between stamps reading.observed_last_progress_at reading.now = some seconds

theorem parsed_of_between {start finish : Text} {seconds : ℚ}
    (h : seconds_between stamps start finish = some seconds) :
    (∃ s, stamps.parse start = some s) ∧ ∃ s, stamps.parse finish = some s := by
  unfold seconds_between at h
  cases hstart : stamps.parse start with
  | none =>
    rw [hstart] at h
    cases h
  | some s =>
    cases hfinish : stamps.parse finish with
    | none =>
      rw [hstart, hfinish] at h
      cases h
    | some t => exact ⟨⟨s, rfl⟩, t, rfl⟩

theorem strip_of_parsed {text : Text} (h : ∃ s, stamps.parse text = some s) :
    strip text = text ∧ text ≠ [] := by
  obtain ⟨s, hs⟩ := h
  refine ⟨stamps.strip_parsed text s hs, ?_⟩
  rintro rfl
  rw [stamps.parse_nil] at hs
  cases hs

theorem progress_timestamp_timely {reading : Reading} {seconds : ℚ}
    (h : Timely stamps reading seconds) :
    progress_timestamp reading.observed_last_progress_at reading.now =
      .ok reading.observed_last_progress_at := by
  obtain ⟨hstrip, hne⟩ := strip_of_parsed (parsed_of_between h.between).1
  unfold progress_timestamp
  rw [hstrip, if_neg hne, if_neg hne]

structure Named (subject : Subject) : Prop where
  kind : strip subject.kind ≠ []
  id : strip subject.id ≠ []
  owner : strip subject.owner ≠ []

theorem post_init_named (state : HeartbeatState) (hsubject : Named subject)
    (hkind : state.subject_kind = subject.kind) (hid : state.subject_id = subject.id)
    (howner : state.owner = subject.owner) (hprogress : strip state.last_progress_at ≠ [])
    (hupdated : strip state.updated_at ≠ []) : state.post_init = .ok state := by
  rw [post_init_iff]
  exact ⟨rfl, by rw [hkind]; exact hsubject.kind, by rw [hid]; exact hsubject.id,
    by rw [howner]; exact hsubject.owner, hprogress, hupdated⟩

theorem evaluate_heartbeat_returns (hsubject : Named subject) {reading : Reading} {seconds : ℚ}
    (hreading : Timely stamps reading seconds) {given : Option HeartbeatState}
    (hgiven : ∀ state, given = some state → Filled state) :
    ∃ result, evaluate_heartbeat stamps policy subject reading.observed_last_progress_at
      reading.now given = .ok result ∧ Filled result.1 := by
  obtain ⟨hstrip, hne⟩ := strip_of_parsed (parsed_of_between hreading.between).1
  obtain ⟨hstrip_now, hne_now⟩ := strip_of_parsed (parsed_of_between hreading.between).2
  have hprogress : strip reading.observed_last_progress_at ≠ [] := by
    rw [hstrip]
    exact hne
  have hnow : strip reading.now ≠ [] := by
    rw [hstrip_now]
    exact hne_now
  have hcurrent : ∃ current, current_state subject reading.observed_last_progress_at reading.now
      given = .ok current ∧ strip current.last_progress_at ≠ [] ∧ strip current.updated_at ≠ [] := by
    cases given with
    | some state =>
      exact ⟨state, rfl, (hgiven state rfl).last_progress_at, (hgiven state rfl).updated_at⟩
    | none => exact ⟨_, post_init_named _ hsubject rfl rfl rfl hprogress hnow, hprogress, hnow⟩
  obtain ⟨current, hcurrent, hrecorded, hupdated⟩ := hcurrent
  have hbase : state_with_subject current subject = .ok
      { current with
        subject_kind := subject.kind
        subject_id := subject.id
        owner := subject.owner } :=
    post_init_named _ hsubject rfl rfl rfl hrecorded hupdated
  have hfilled : ∀ {state : HeartbeatState}, state.post_init = .ok state → Filled state :=
    fun h => (post_init_iff.mp h).2
  unfold evaluate_heartbeat
  rw [progress_timestamp_timely hreading]
  simp only [bind, Except.bind, hcurrent, hbase]
  split
  · have hreset := post_init_named
      { current with
        subject_kind := subject.kind
        subject_id := subject.id
        owner := subject.owner
        last_progress_at := reading.observed_last_progress_at
        last_notice_at := none
        heartbeat_started_at := none
        notice_count := 0
        updated_at := reading.now } hsubject rfl rfl rfl hprogress hnow
    unfold reset_state
    rw [hreset]
    exact ⟨_, rfl, hfilled hreset⟩
  · have hseen := post_init_named
      { current with
        subject_kind := subject.kind
        subject_id := subject.id
        owner := subject.owner
        last_progress_at := reading.observed_last_progress_at } hsubject rfl rfl rfl hprogress
        hupdated
    rw [hseen]
    simp only
    have hnoticed : ∀ count, ∃ next_state, noticed_state
        { current with
          subject_kind := subject.kind
          subject_id := subject.id
          owner := subject.owner
          last_progress_at := reading.observed_last_progress_at } reading.now count =
        .ok next_state ∧ Filled next_state := by
      intro count
      have hnext := post_init_named
        { current with
          subject_kind := subject.kind
          subject_id := subject.id
          owner := subject.owner
          last_progress_at := reading.observed_last_progress_at
          last_notice_at := some reading.now
          heartbeat_started_at :=
            some ((current.heartbeat_started_at.filter (· ≠ [])).getD reading.now)
          notice_count := count
          updated_at := reading.now } hsubject rfl rfl rfl hprogress hnow
      exact ⟨_, hnext, hfilled hnext⟩
    unfold evaluate_silence
    simp only
    split
    · exact ⟨_, rfl, hfilled hseen⟩
    · split
      · obtain ⟨next_state, hnext, hstate⟩ := hnoticed 1
        unfold enter_state
        rw [hnext]
        exact ⟨_, rfl, hstate⟩
      · split
        · exact ⟨_, rfl, hfilled hseen⟩
        · split
          · exact ⟨_, rfl, hfilled hseen⟩
          · obtain ⟨next_state, hnext, hstate⟩ := hnoticed (current.notice_count + 1)
            unfold repeat_state
            rw [hnext]
            exact ⟨_, rfl, hstate⟩

def sinceReset (evaluations : List Evaluation) : List Evaluation :=
  evaluations.rtakeWhile fun e => e.decision.action ≠ .reset

def notices (evaluations : List Evaluation) : List Evaluation :=
  evaluations.filter fun e => e.decision.notice_due

/-- At least the interval of the policy passes between two evaluations. -/
def Apart (stamps : Timestamps) (policy : HeartbeatPolicy) (e later : Evaluation) : Prop :=
  ∃ seconds, seconds_between stamps e.reading.now later.reading.now = some seconds ∧
    policy.repeat_interval_s ≤ seconds

/-- The notices between two resets. -/
structure Noticed (stamps : Timestamps) (policy : HeartbeatPolicy) (found : List Evaluation) :
    Prop where
  first : ∀ e later, found = e :: later → e.decision.action = .enter ∧
    ∀ e' ∈ later, e'.decision.action = .repeat_
  apart : found.IsChain (Apart stamps policy)
  limit : ∀ count, policy.max_notice_count = some count → found.length ≤ count

/-- The state counts the notices since the last reset and keeps the time of the last of them. -/
structure Counts (evaluations : List Evaluation) (state : HeartbeatState) : Prop where
  count : state.notice_count = (notices (sinceReset evaluations)).length
  last : state.last_notice_at =
    (notices (sinceReset evaluations)).getLast?.map fun e => e.reading.now

variable {evaluations : List Evaluation} {e : Evaluation}

theorem sinceReset_reset (h : e.decision.action = .reset) : sinceReset (evaluations ++ [e]) = [] :=
  List.rtakeWhile_concat_neg _ _ _ (by simp [h])

theorem sinceReset_append (h : e.decision.action ≠ .reset) :
    sinceReset (evaluations ++ [e]) = sinceReset evaluations ++ [e] :=
  List.rtakeWhile_concat_pos _ _ _ (by simp [h])

theorem notices_append_idle (h : e.decision.action = .idle) :
    notices (evaluations ++ [e]) = notices evaluations := by
  unfold notices HeartbeatDecision.notice_due
  rw [List.filter_append]
  simp [h]

theorem notices_append_due (h : e.decision.action = .enter ∨ e.decision.action = .repeat_) :
    notices (evaluations ++ [e]) = notices evaluations ++ [e] := by
  unfold notices HeartbeatDecision.notice_due
  rw [List.filter_append]
  obtain h | h := h <;> simp [h]

theorem should_enter_iff (h : Counts evaluations state) :
    should_enter_heartbeat state = true ↔ notices (sinceReset evaluations) = [] := by
  unfold should_enter_heartbeat
  rw [h.count, h.last, Bool.or_eq_true, decide_eq_true_iff, List.length_eq_zero_iff]
  constructor
  · rintro (hnone | hnil)
    · rw [Option.isNone_iff_eq_none, Option.map_eq_none_iff, List.getLast?_eq_none_iff] at hnone
      exact hnone
    · exact hnil
  · exact Or.inr

/-- An evaluation counts the notice that it makes, and a reset starts at none. -/
theorem Counts.append (h : Counts evaluations state)
    (hevaluates : Evaluates stamps policy progress_at e.reading.now state e.next_state
      e.decision.action) : Counts (evaluations ++ [e]) e.next_state := by
  cases hevaluates with
  | reset _ haction hcount hnotice =>
    constructor
    · rw [hcount, sinceReset_reset haction]
      rfl
    · rw [hnotice, sinceReset_reset haction]
      rfl
  | idle _ haction hcount hnotice =>
    constructor
    · rw [hcount, sinceReset_append (by simp [haction]), notices_append_idle haction]
      exact h.count
    · rw [hnotice, sinceReset_append (by simp [haction]), notices_append_idle haction]
      exact h.last
  | enter _ _ hfirst haction hcount hnotice =>
    have hnil := (should_enter_iff h).mp hfirst
    constructor
    · rw [hcount, sinceReset_append (by simp [haction]), notices_append_due (Or.inl haction), hnil]
      rfl
    · rw [hnotice, sinceReset_append (by simp [haction]), notices_append_due (Or.inl haction),
        List.getLast?_concat]
      rfl
  | repeat_ _ _ _ _ _ haction hcount hnotice =>
    constructor
    · rw [hcount, sinceReset_append (by simp [haction]), notices_append_due (Or.inr haction),
        List.length_append, h.count]
      rfl
    · rw [hnotice, sinceReset_append (by simp [haction]), notices_append_due (Or.inr haction),
        List.getLast?_concat]
      rfl

theorem noticed_nil (stamps : Timestamps) (policy : HeartbeatPolicy) : Noticed stamps policy [] :=
  { first := fun _ _ h => by cases h
    apart := List.isChain_nil
    limit := fun _ _ => Nat.zero_le _ }

theorem between_of_seconds_since {start finish : Text} {seconds : ℚ} (hpos : 0 < seconds)
    (h : seconds ≤ seconds_since stamps start finish) :
    ∃ elapsed, seconds_between stamps start finish = some elapsed ∧ seconds ≤ elapsed := by
  unfold seconds_since at h
  cases hbetween : seconds_between stamps start finish with
  | none =>
    rw [hbetween] at h
    exact absurd h (not_le.mpr hpos)
  | some elapsed =>
    rw [hbetween, Option.map_some, Option.getD_some, le_max_iff] at h
    obtain h | h := h
    · exact absurd h (not_le.mpr hpos)
    · exact ⟨elapsed, rfl, h⟩

/-- A notice comes first by entering, then by repeating: `Counts` says which, and how long after. -/
theorem Noticed.append (hcounts : Counts evaluations state)
    (h : Noticed stamps policy (notices (sinceReset evaluations)))
    (hevaluates : Evaluates stamps policy progress_at e.reading.now state e.next_state
      e.decision.action) :
    Noticed stamps policy (notices (sinceReset (evaluations ++ [e]))) := by
  cases hevaluates with
  | reset _ haction _ _ =>
    rw [sinceReset_reset haction]
    exact noticed_nil stamps policy
  | idle _ haction _ _ =>
    rw [sinceReset_append (by simp [haction]), notices_append_idle haction]
    exact h
  | enter _ _ hfirst haction _ _ =>
    have hnil := (should_enter_iff hcounts).mp hfirst
    rw [sinceReset_append (by simp [haction]), notices_append_due (Or.inl haction), hnil]
    constructor
    · intro e' later hfound
      cases hfound
      exact ⟨haction, fun e'' he'' => absurd he'' List.not_mem_nil⟩
    · exact List.isChain_singleton _
    · intro count hmax
      exact policy.max_pos count hmax
  | repeat_ _ _ hmore hlimit helapsed haction _ _ =>
    have hne : notices (sinceReset evaluations) ≠ [] := by
      intro hnil
      rw [(should_enter_iff hcounts).mpr hnil] at hmore
      cases hmore
    rw [sinceReset_append (by simp [haction]), notices_append_due (Or.inr haction)]
    constructor
    · intro e' later hfound
      obtain ⟨e₀, later₀, hlater₀⟩ := List.exists_cons_of_ne_nil hne
      rw [hlater₀, List.cons_append, List.cons.injEq] at hfound
      obtain ⟨rfl, rfl⟩ := hfound
      obtain ⟨henter, hrepeats⟩ := h.first e₀ later₀ hlater₀
      refine ⟨henter, ?_⟩
      intro e'' he''
      obtain he'' | he'' := List.mem_append.mp he''
      · exact hrepeats e'' he''
      · rw [List.mem_singleton.mp he'']
        exact haction
    · rw [List.isChain_append]
      refine ⟨h.apart, List.isChain_singleton _, ?_⟩
      intro last hlast next hnext
      cases hnext
      have hnotice := hcounts.last
      rw [Option.mem_def] at hlast
      rw [hlast] at hnotice
      unfold since_last_notice_seconds at helapsed
      rw [hnotice] at helapsed
      exact between_of_seconds_since policy.repeat_pos helapsed
    · intro count hmax
      unfold notice_limit_reached at hlimit
      rw [hmax, Option.any_some, decide_eq_false_iff_not, not_le, hcounts.count] at hlimit
      rw [List.length_append]
      exact hlimit

/-- What each evaluation of a run does after those before it. -/
structure Follows (stamps : Timestamps) (policy : HeartbeatPolicy) (before : List Evaluation)
    (e : Evaluation) : Prop where
  given : e.state = before.getLast?.map Evaluation.next_state
  silence : e.decision.notice_due = true → ∃ seconds,
    seconds_between stamps e.reading.observed_last_progress_at e.reading.now = some seconds ∧
      policy.silence_start_after_s ≤ seconds
  progress : notices (sinceReset before) ≠ [] → ∀ state, e.state = some state → ∀ seconds,
    seconds_between stamps state.last_progress_at e.reading.observed_last_progress_at =
      some seconds → 0 < seconds → e.decision.action = .reset

/-- How the notices of a run follow one another. -/
structure Disciplined (stamps : Timestamps) (policy : HeartbeatPolicy)
    (evaluations : List Evaluation) : Prop where
  follows : ∀ before e after, evaluations = before ++ e :: after → Follows stamps policy before e
  /-- Of every stretch of a run without a reset, from its start or a reset on. -/
  noticed : ∀ before stretch after, evaluations = before ++ stretch ++ after →
    (∀ e ∈ before.getLast?, e.decision.action = .reset) →
    (∀ e ∈ stretch, e.decision.action ≠ .reset) → Noticed stamps policy (notices stretch)

theorem follows_of_evaluates (hcounts : Counts evaluations state)
    (hgiven : e.state = evaluations.getLast?.map Evaluation.next_state)
    (hstate : e.state = none ∨ e.state = some state) {seconds : ℚ}
    (hreading : Timely stamps e.reading seconds)
    (hevaluates : Evaluates stamps policy e.reading.observed_last_progress_at e.reading.now state
      e.next_state e.decision.action) : Follows stamps policy evaluations e := by
  have hsilence : policy.silence_start_after_s ≤
      silence_seconds stamps e.reading.observed_last_progress_at e.reading.now →
      ∃ seconds, seconds_between stamps e.reading.observed_last_progress_at e.reading.now =
        some seconds ∧ policy.silence_start_after_s ≤ seconds := by
    intro hle
    unfold silence_seconds seconds_since at hle
    rw [hreading.between, Option.map_some, Option.getD_some, max_eq_right hreading.nonneg] at hle
    exact ⟨seconds, hreading.between, hle⟩
  have hnewer : ∀ recorded, e.state = some recorded → ∀ seconds,
      seconds_between stamps recorded.last_progress_at e.reading.observed_last_progress_at =
        some seconds → 0 < seconds →
      progress_advanced stamps e.reading.observed_last_progress_at state.last_progress_at =
        true := by
    intro recorded hrecorded seconds hbetween hpos
    obtain hnone | hsome := hstate
    · rw [hnone] at hrecorded
      cases hrecorded
    · rw [hsome] at hrecorded
      cases hrecorded
      unfold progress_advanced
      rw [hbetween]
      split
      · rename_i heq
        obtain ⟨⟨s, hs⟩, -⟩ := parsed_of_between hbetween
        rw [heq] at hbetween
        unfold seconds_between at hbetween
        rw [hs] at hbetween
        have hzero : seconds = 0 := by
          rw [← Option.some_inj.mp hbetween]
          exact sub_self s
        exact absurd hpos (by rw [hzero]; exact lt_irrefl 0)
      · exact decide_eq_true hpos
  have hactive : notices (sinceReset evaluations) ≠ [] → heartbeat_active state = true := by
    intro hne
    unfold heartbeat_active
    rw [hcounts.count, Bool.or_eq_true, decide_eq_true_iff]
    exact Or.inl (List.length_pos_iff.mpr hne)
  have hquiet : (progress_advanced stamps e.reading.observed_last_progress_at
        state.last_progress_at = true → heartbeat_active state = false) →
      notices (sinceReset evaluations) ≠ [] → ∀ recorded, e.state = some recorded → ∀ seconds,
      seconds_between stamps recorded.last_progress_at e.reading.observed_last_progress_at =
        some seconds → 0 < seconds → e.decision.action = .reset := by
    intro hquiet hne recorded hrecorded seconds hbetween hpos
    have hfalse := hquiet (hnewer recorded hrecorded seconds hbetween hpos)
    rw [hactive hne] at hfalse
    cases hfalse
  cases hevaluates with
  | reset _ haction _ _ =>
    refine ⟨hgiven, ?_, fun _ _ _ _ _ _ => haction⟩
    intro hdue
    unfold HeartbeatDecision.notice_due at hdue
    rw [haction] at hdue
    cases hdue
  | idle hq haction _ _ =>
    refine ⟨hgiven, ?_, hquiet hq⟩
    intro hdue
    unfold HeartbeatDecision.notice_due at hdue
    rw [haction] at hdue
    cases hdue
  | enter hq hlong _ _ _ _ => exact ⟨hgiven, fun _ => hsilence hlong, hquiet hq⟩
  | repeat_ hq hlong _ _ _ _ _ _ => exact ⟨hgiven, fun _ => hsilence hlong, hquiet hq⟩

structure Kept (stamps : Timestamps) (policy : HeartbeatPolicy) (evaluations : List Evaluation) :
    Prop where
  counts : ∀ e ∈ evaluations.getLast?, Counts evaluations e.next_state ∧ Filled e.next_state
  follows : ∀ before e after, evaluations = before ++ e :: after → Follows stamps policy before e
  noticed : ∀ done, done <+: evaluations → Noticed stamps policy (notices (sinceReset done))

theorem kept_nil (stamps : Timestamps) (policy : HeartbeatPolicy) : Kept stamps policy [] := by
  constructor
  · intro e h
    cases h
  · intro before e after h
    exact absurd h.symm (by simp)
  · intro done hdone
    rw [List.prefix_nil.mp hdone]
    exact noticed_nil stamps policy

theorem Kept.evaluate_next (h : Kept stamps policy evaluations) (hsubject : Named subject)
    {reading : Reading} {seconds : ℚ} (hreading : Timely stamps reading seconds) :
    ∃ more, evaluate_next stamps policy subject evaluations reading = .ok more ∧
      Kept stamps policy more := by
  have hfilled : ∀ state, evaluations.getLast?.map Evaluation.next_state = some state →
      Counts evaluations state ∧ Filled state := by
    intro state hstate
    obtain ⟨e, he, rfl⟩ := Option.map_eq_some_iff.mp hstate
    exact h.counts e he
  obtain ⟨result, hresult, hnext⟩ :=
    @evaluate_heartbeat_returns stamps policy subject hsubject reading seconds hreading _
      fun state hstate => (hfilled state hstate).2
  obtain ⟨progress_at, state, hprogress, hbegins, hevaluates, -⟩ := evaluate_heartbeat_cases hresult
  rw [progress_timestamp_timely hreading, Except.ok.injEq] at hprogress
  subst hprogress
  have hcounts : Counts evaluations state := by
    obtain hgiven | ⟨hgiven, -, hcount, hnotice⟩ := hbegins
    · exact (hfilled state hgiven).1
    · rw [Option.map_eq_none_iff, List.getLast?_eq_none_iff] at hgiven
      subst hgiven
      exact ⟨hcount, hnotice⟩
  let e : Evaluation :=
    ⟨reading, evaluations.getLast?.map Evaluation.next_state, result.1, result.2⟩
  have hlater : Counts (evaluations ++ [e]) e.next_state := hcounts.append hevaluates
  have hfollows : Follows stamps policy evaluations e := by
    refine follows_of_evaluates hcounts rfl ?_ hreading hevaluates
    obtain hgiven | ⟨hgiven, -⟩ := hbegins
    · exact Or.inr hgiven
    · exact Or.inl hgiven
  refine ⟨evaluations ++ [e], ?_, ?_, ?_, ?_⟩
  · unfold Model.Heartbeat.evaluate_next
    simp only [bind, Except.bind, hresult]
    rfl
  · intro last hlast
    rw [List.getLast?_concat, Option.mem_def, Option.some_inj] at hlast
    subst hlast
    exact ⟨hlater, hnext⟩
  · intro before e' after hsplit
    obtain rfl | ⟨last, rfl⟩ : after = [] ∨ ∃ last, after = last ++ [e] := by
      induction after using List.reverseRecOn with
      | nil => exact Or.inl rfl
      | append_singleton last e'' _ =>
        rw [← List.cons_append, ← List.append_assoc] at hsplit
        have hlast := List.singleton_inj.mp (List.append_inj' hsplit rfl).2
        exact Or.inr ⟨last, by rw [hlast]⟩
    · obtain ⟨hbefore, he⟩ := List.append_inj' hsplit rfl
      rw [← hbefore, ← List.singleton_inj.mp he]
      exact hfollows
    · rw [← List.cons_append, ← List.append_assoc] at hsplit
      exact h.follows before e' last (List.append_inj' hsplit rfl).1
  · intro done hdone
    obtain rfl | hdone := List.prefix_concat_iff.mp hdone
    · exact (h.noticed evaluations (List.prefix_refl _)).append hcounts hevaluates
    · exact h.noticed done hdone

theorem sinceReset_stretch {before stretch : List Evaluation}
    (hbefore : ∀ e ∈ before.getLast?, e.decision.action = .reset)
    (hstretch : ∀ e ∈ stretch, e.decision.action ≠ .reset) :
    sinceReset (before ++ stretch) = stretch := by
  induction stretch using List.reverseRecOn with
  | nil =>
    rw [List.append_nil]
    obtain rfl | ⟨first, e, rfl⟩ := List.eq_nil_or_concat before
    · rfl
    · rw [List.concat_eq_append] at hbefore ⊢
      exact sinceReset_reset (hbefore e List.getLast?_concat)
  | append_singleton stretch e ih =>
    rw [← List.append_assoc, sinceReset_append (hstretch e (by simp)),
      ih fun e' he' => hstretch e' (List.mem_append_left _ he')]

theorem Kept.disciplined (h : Kept stamps policy evaluations) :
    Disciplined stamps policy evaluations := by
  refine ⟨h.follows, ?_⟩
  intro before stretch after hsplit hbefore hstretch
  have hnoticed := h.noticed (before ++ stretch) ⟨after, hsplit.symm⟩
  rw [sinceReset_stretch hbefore hstretch] at hnoticed
  exact hnoticed

/-- A run of evaluations that are given readable times, of progress that is not in the future,
returns; a notice is issued only after the silence of the policy; in every stretch without a reset
the first notice and no other one enters, notices are an interval apart, and they are no more than
the policy allows; and new progress after a notice resets. -/
theorem heartbeat_notices_disciplined (stamps : Timestamps) (policy : HeartbeatPolicy)
    (subject : Subject) (hsubject : Named subject) (readings : List Reading)
    (hreadings : ∀ reading ∈ readings, ∃ seconds, Timely stamps reading seconds) :
    ∃ evaluations, evaluate_all stamps policy subject readings = .ok evaluations ∧
      evaluations.map Evaluation.reading = readings ∧
      Disciplined stamps policy evaluations := by
  have hkept : ∃ evaluations, evaluate_all stamps policy subject readings = .ok evaluations ∧
      evaluations.map Evaluation.reading = readings ∧ Kept stamps policy evaluations := by
    induction readings using List.reverseRecOn with
    | nil => exact ⟨[], rfl, rfl, kept_nil stamps policy⟩
    | append_singleton readings reading ih =>
      obtain ⟨evaluations, hrun, hmap, hkept⟩ :=
        ih fun r hr => hreadings r (List.mem_append_left _ hr)
      obtain ⟨seconds, htimely⟩ := hreadings reading (by simp)
      obtain ⟨more, hnext, hmore⟩ := hkept.evaluate_next hsubject htimely
      refine ⟨more, ?_, ?_, hmore⟩
      · unfold evaluate_all at hrun ⊢
        rw [List.foldlM_append, hrun]
        simp only [bind, Except.bind, List.foldlM_cons, List.foldlM_nil, hnext]
        rfl
      · unfold Model.Heartbeat.evaluate_next at hnext
        obtain ⟨result, -, hnext⟩ := bind_ok.mp hnext
        cases hnext
        rw [List.map_append, hmap]
        rfl
  obtain ⟨evaluations, hrun, hmap, hkept⟩ := hkept
  exact ⟨evaluations, hrun, hmap, hkept.disciplined⟩

/-- The times of one minute, to the second. -/
def minuteStamps : Timestamps where
  parse text :=
    if strip text = text ∧ text.take 17 = asciiText "2026-01-01T00:00:" then
      match text.drop 17 with
      | [tens, ones, _] => some (10 * (tens.val - 48) + (ones.val - 48))
      | _ => none
    else none
  parse_nil := rfl
  strip_parsed := by
    intro text seconds h
    split at h
    · rename_i hcond
      exact hcond.1
    · cases h

def stamp (second : String) : Text := asciiText ("2026-01-01T00:00:" ++ second ++ "Z")

/-- Notices after two seconds of silence, every second, at most two. -/
def twoNotices : HeartbeatPolicy where
  silence_start_after_s := 2
  repeat_interval_s := 1
  max_notice_count := some 2
  silence_nonneg := by norm_num
  repeat_pos := by norm_num
  max_pos := by
    intro count h
    cases h
    decide

def someJob : Subject := ⟨asciiText "job", asciiText "job_1", asciiText "codex"⟩

/-- Progress at second 1, and then at second 5. -/
def twoProgresses : List Reading :=
  [⟨stamp "01", stamp "02"⟩, ⟨stamp "01", stamp "03"⟩, ⟨stamp "01", stamp "04"⟩,
    ⟨stamp "05", stamp "06"⟩]

theorem heartbeat_notices_disciplined_twice :
    ∃ evaluations, evaluate_all minuteStamps twoNotices someJob twoProgresses = .ok evaluations ∧
      evaluations.map Evaluation.reading = twoProgresses ∧
      Disciplined minuteStamps twoNotices evaluations :=
  heartbeat_notices_disciplined minuteStamps twoNotices someJob
    ⟨by decide, by decide, by decide⟩ twoProgresses (by
      intro reading hreading
      simp only [twoProgresses, List.mem_cons, List.not_mem_nil, or_false] at hreading
      obtain rfl | rfl | rfl | rfl := hreading
      · exact ⟨1, by norm_num, by decide +kernel⟩
      · exact ⟨2, by norm_num, by decide +kernel⟩
      · exact ⟨3, by norm_num, by decide +kernel⟩
      · exact ⟨1, by norm_num, by decide +kernel⟩)

end ClaudeCodeBridge.Analysis.Heartbeat
