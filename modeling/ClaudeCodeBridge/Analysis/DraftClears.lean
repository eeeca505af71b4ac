import ClaudeCodeBridge.Model.DraftGuards

/-!
# Clears of drafts

A guard that has not tried to clear has seen nothing but a draft since the time it notes
(`Good.waited`); one that has tried does not try again before it sees an empty composer or
another binding (`Good.tried`).  Every access of `allows` keeps this, so that in every log a
clear comes after a draft of `WAIT_SECONDS`, and between two clears the first one is released
(`draft_clears_guarded`).
-/

set_option autoImplicit false

namespace ClaudeCodeBridge.Analysis.DraftGuards

open Program
open Model.DraftGuards
open Model.DraftGuards.Watch

variable {world : World} {w : Watch} {guard : DraftGuard} {binding : Text}

abbrev Log := List (ℕ × Event)

def Drafted (binding : Text) (log : Log) : Prop :=
  ∀ k o, (k, Event.observed o) ∈ log → o.state = .nonempty ∧ o.binding = binding

/-- An observation shows an empty composer, or another binding. -/
def Released (binding : Text) (log : Log) : Prop :=
  ∃ k o, (k, Event.observed o) ∈ log ∧
    (o.state = .empty ∨ o.state = .nonempty ∧ o.binding ≠ binding)

def Waited (world : World) (binding : Text) (time : ℚ) (log : Log) : Prop :=
  ∃ earlier k o later, log = earlier ++ (k, Event.observed o) :: later ∧
    world.clock k ≤ time ∧ Drafted binding ((k, Event.observed o) :: later)

/-- Before each clear there is a draft of `WAIT_SECONDS`, up to the last observation, which is the
one that the clear is about. -/
def Patient (world : World) (log : Log) : Prop :=
  ∀ before k o after, log = before ++ (k, Event.cleared o) :: after →
    o.state = .nonempty ∧
    (∃ j, before.getLast? = some (j, Event.observed o)) ∧
    Waited world o.binding (world.clock k - wait_seconds) before

/-- Between two clears the first one is released. -/
def Separated (log : Log) : Prop :=
  ∀ before k o between k' o' after,
    log = before ++ (k, Event.cleared o) :: (between ++ (k', Event.cleared o') :: after) →
    Released o.binding between

theorem Released.append {log : Log} (h : Released binding log) (more : Log) :
    Released binding (log ++ more) := by
  obtain ⟨k, o, hmem, ho⟩ := h
  exact ⟨k, o, List.mem_append_left _ hmem, ho⟩

variable {k : ℕ} {o : Observation}

theorem released_append_observed {log : Log}
    (h : o.state = .empty ∨ o.state = .nonempty ∧ o.binding ≠ binding) :
    Released binding (log ++ [(k, .observed o)]) :=
  ⟨k, o, List.mem_append_right _ List.mem_cons_self, h⟩

variable {time : ℚ}

theorem Waited.append_observed {log : Log} (h : Waited world binding time log)
    (hstate : o.state = .nonempty) (hbinding : o.binding = binding) :
    Waited world binding time (log ++ [(k, .observed o)]) := by
  obtain ⟨earlier, j, first, later, rfl, htime, hdrafted⟩ := h
  refine ⟨earlier, j, first, later ++ [(k, .observed o)], by simp, htime, ?_⟩
  intro i p hp
  rw [← List.cons_append, List.mem_append, List.mem_singleton] at hp
  obtain hp | hp := hp
  · exact hdrafted i p hp
  · cases hp
    exact ⟨hstate, hbinding⟩

variable {before : Log}

theorem split_append_singleton {log after : Log} {entry last : ℕ × Event}
    (h : log ++ [last] = before ++ entry :: after) :
    (∃ after', after = after' ++ [last] ∧ log = before ++ entry :: after') ∨
      (after = [] ∧ entry = last ∧ log = before) := by
  induction after using List.reverseRecOn with
  | nil =>
    obtain ⟨hlog, hlast⟩ := List.append_inj' h rfl
    exact Or.inr ⟨rfl, (List.singleton_inj.mp hlast).symm, hlog⟩
  | append_singleton after' next _ =>
    rw [← List.cons_append, ← List.append_assoc] at h
    obtain ⟨hlog, hlast⟩ := List.append_inj' h rfl
    rw [List.singleton_inj] at hlast
    exact Or.inl ⟨after', by rw [hlast], hlog⟩

theorem Patient.append_observed {log : Log} (h : Patient world log) :
    Patient world (log ++ [(k, .observed o)]) := by
  intro before j p after hlog
  obtain ⟨after', -, hsplit⟩ | ⟨-, hentry, -⟩ := split_append_singleton hlog
  · exact h before j p after' hsplit
  · cases hentry

theorem Separated.append_observed {log : Log} (h : Separated log) :
    Separated (log ++ [(k, .observed o)]) := by
  intro before j p between j' p' after hlog
  have hassoc : log ++ [(k, .observed o)] =
      (before ++ (j, .cleared p) :: between) ++ (j', .cleared p') :: after := by
    rw [hlog]
    simp
  obtain ⟨after', -, hsplit⟩ | ⟨-, hentry, -⟩ := split_append_singleton hassoc
  · exact h before j p between j' p' after' (by rw [hsplit]; simp)
  · cases hentry

/-- What the log of a guard is, and what the guard remembers of it: since when the draft has stood,
and that a clear it has tried is still unreleased. -/
structure Good (world : World) (w : Watch) : Prop where
  patient : Patient world w.log
  separated : Separated w.log
  waited : w.guard.clear_attempted = false → ∀ time, w.guard.since = some time →
    Waited world w.guard.binding time w.log
  tried : ∀ before k o after, w.log = before ++ (k, Event.cleared o) :: after →
    (w.guard.clear_attempted = true ∧ w.guard.binding = o.binding) ∨ Released o.binding after

theorem good_start (world : World) (tick : ℕ) : Good world (start tick) := by
  have hnil : ∀ {entry : ℕ × Event} {before after : Log}, [] ≠ before ++ entry :: after :=
    fun h => absurd h.symm (by simp)
  constructor
  · exact fun before k o after h => absurd h hnil
  · exact fun before k o between k' o' after h => absurd h hnil
  · intro _ time h
    cases h
  · exact fun before k o after h => absurd h hnil

theorem Good.explain (h : Good world w) (reason : Text) : Good world (w.explain reason) :=
  { patient := h.patient
    separated := h.separated
    waited := h.waited
    tried := h.tried }

theorem Good.look (h : Good world w) : Good world w.look :=
  { patient := h.patient
    separated := h.separated
    waited := h.waited
    tried := h.tried }

theorem Good.reset (h : Good world w) (reason : Text) : Good world (w.set (w.guard.reset reason)) :=
  { patient := h.patient
    separated := h.separated
    waited := by
      intro _ time htime
      cases htime
    tried := h.tried }

theorem Good.tried_observed (h : Good world w) {i : ℕ} {p : Observation} (before : Log) (k : ℕ)
    (o : Observation) (after : Log)
    (hlog : w.log ++ [(i, .observed p)] = before ++ (k, Event.cleared o) :: after) :
    (w.guard.clear_attempted = true ∧ w.guard.binding = o.binding) ∨ Released o.binding after := by
  obtain ⟨after', rfl, hsplit⟩ | ⟨-, hentry, -⟩ := split_append_singleton hlog
  · obtain htried | hreleased := h.tried before k o after' hsplit
    · exact Or.inl htried
    · exact Or.inr (hreleased.append _)
  · cases hentry

/-- A guard that starts over remembers nothing that the log could contradict. -/
theorem Good.observe_reset (h : Good world w) (reason : Text) :
    Good world ((w.observe world).set ((w.observe world).guard.reset reason)) := by
  constructor
  · exact h.patient.append_observed
  · exact h.separated.append_observed
  · intro _ time htime
    cases htime
  · exact h.tried_observed

/-- An observation that releases the last clear lets the guard forget it. -/
theorem Good.observe_released (h : Good world w)
    (ho : (world.observe w.tick).state = .empty ∨
      (world.observe w.tick).state = .nonempty ∧ (world.observe w.tick).binding ≠ w.guard.binding)
    (hsince : guard.since = none) : Good world ((w.observe world).set guard) := by
  constructor
  · exact h.patient.append_observed
  · exact h.separated.append_observed
  · intro _ time htime
    rw [show ((w.observe world).set guard).guard = guard from rfl, hsince] at htime
    cases htime
  · intro before k o after hlog
    obtain ⟨after', rfl, hsplit⟩ | ⟨-, hentry, -⟩ := split_append_singleton hlog
    · obtain ⟨-, hbinding⟩ | hreleased := h.tried before k o after' hsplit
      · rw [hbinding] at ho
        exact Or.inr (released_append_observed ho)
      · exact Or.inr (hreleased.append _)
    · cases hentry

/-- The draft that is waited for is there once more. -/
theorem Good.observe_draft (h : Good world w) (hstate : (world.observe w.tick).state = .nonempty)
    (hbinding : (world.observe w.tick).binding = w.guard.binding) :
    Good world (w.observe world) := by
  constructor
  · exact h.patient.append_observed
  · exact h.separated.append_observed
  · intro hattempted time htime
    exact (h.waited hattempted time htime).append_observed hstate hbinding
  · exact h.tried_observed

theorem Good.observe_attempted (h : Good world w) (hattempted : w.guard.clear_attempted = true) :
    Good world (w.observe world) := by
  constructor
  · exact h.patient.append_observed
  · exact h.separated.append_observed
  · intro hfalse
    rw [show (w.observe world).guard = w.guard from rfl, hattempted] at hfalse
    cases hfalse
  · exact h.tried_observed

/-- A clear, directly after an observation of the draft that the guard has waited for. -/
theorem Good.clear (h : Good world w) (hattempted : w.guard.clear_attempted = false)
    (hsince : w.guard.since = some time) (htime : time ≤ world.clock w.tick - wait_seconds)
    (hlog : w.log = before ++ [(k, .observed o)]) (hstate : o.state = .nonempty)
    (hbinding : o.binding = w.guard.binding) :
    Good world ((w.set { w.guard with clear_attempted := true }).clear o) := by
  have hwaited : Waited world o.binding (world.clock w.tick - wait_seconds) w.log := by
    obtain ⟨earlier, j, first, later, hw, hclock, hdrafted⟩ := h.waited hattempted time hsince
    rw [← hbinding] at hdrafted
    exact ⟨earlier, j, first, later, hw, hclock.trans htime, hdrafted⟩
  have hlast : ∃ j, w.log.getLast? = some (j, Event.observed o) := by
    rw [hlog, List.getLast?_concat]
    exact ⟨k, rfl⟩
  have hreleased : ∀ before j p after, w.log = before ++ (j, Event.cleared p) :: after →
      Released p.binding after := by
    intro before j p after hsplit
    obtain ⟨htried, -⟩ | hreleased := h.tried before j p after hsplit
    · rw [hattempted] at htried
      cases htried
    · exact hreleased
  constructor
  · intro first j p after hsplit
    obtain ⟨after', -, hold⟩ | ⟨-, hentry, hnew⟩ := split_append_singleton hsplit
    · exact h.patient first j p after' hold
    · cases hentry
      rw [← hnew]
      exact ⟨hstate, hlast, hwaited⟩
  · intro first j p between j' p' after hsplit
    have hassoc : w.log ++ [(w.tick, .cleared o)] =
        (first ++ (j, .cleared p) :: between) ++ (j', .cleared p') :: after := by
      change w.log ++ [(w.tick, .cleared o)] = _ at hsplit
      rw [hsplit]
      simp
    obtain ⟨after', -, hold⟩ | ⟨-, -, hnew⟩ := split_append_singleton hassoc
    · exact h.separated first j p between j' p' after' (by rw [hold]; simp)
    · exact hreleased first j p between hnew
  · intro hfalse
    cases hfalse
  · intro first j p after hsplit
    obtain ⟨after', rfl, hold⟩ | ⟨rfl, hentry, -⟩ := split_append_singleton hsplit
    · exact Or.inr ((hreleased first j p after' hold).append _)
    · cases hentry
      exact Or.inl ⟨rfl, hbinding.symm⟩

/-- After a clear the guard looks again, and only an empty composer releases it. -/
theorem Good.confirm (h : Good world w) (hattempted : w.guard.clear_attempted = true) :
    Good world (w.confirm world).2 := by
  unfold Watch.confirm
  simp only
  split
  · rename_i hafter
    exact h.observe_released (Or.inl hafter.2) rfl
  · exact (h.observe_attempted hattempted).explain _

/-- A clear comes after `WAIT_SECONDS` of the same draft, up to the look that it follows. -/
theorem Good.clear_draft (h : Good world w) (hclock : Monotone world.clock)
    (hattempted : w.guard.clear_attempted = false) (hsince : w.guard.since = some time)
    (htime : time ≤ world.clock w.tick - wait_seconds) : Good world (w.clear_draft world).2 := by
  unfold Watch.clear_draft
  simp only
  split
  · exact h.observe_reset _
  · rename_i hfresh
    rw [not_or, not_ne_iff, not_ne_iff] at hfresh
    obtain ⟨hbinding, hstate⟩ := hfresh
    have hlater : time ≤ world.clock (w.observe world).tick - wait_seconds := by
      have hmono := hclock (Nat.le_succ w.tick)
      exact htime.trans (sub_le_sub_right hmono _)
    have hlog : (w.observe world).log = w.log ++ [(w.tick, .observed (world.observe w.tick))] := rfl
    have hcleared := (h.observe_draft hstate hbinding).clear hattempted hsince hlater hlog hstate
      hbinding
    split
    · exact hcleared.confirm rfl
    · exact hcleared.explain _

theorem Good.wait_since (h : Good world w) (hclock : Monotone world.clock)
    (hattempted : w.guard.clear_attempted = false)
    (hsince : w.guard.since = some time) : Good world (w.wait_since world).2 := by
  unfold Watch.wait_since
  simp only
  split
  · exact h.look.explain _
  · rename_i hwait
    rw [show w.look.guard = w.guard from rfl, hsince, Option.getD_some, not_lt] at hwait
    have hmono := hclock (Nat.le_succ w.tick)
    have htime : time ≤ world.clock w.look.tick - wait_seconds := by
      change time ≤ world.clock (w.tick + 1) - wait_seconds
      linarith
    exact h.look.clear_draft hclock hattempted hsince htime

theorem Good.wait_for_draft (h : Good world w) (hclock : Monotone world.clock)
    (hlog : w.log = before ++ [(k, .observed o)]) (hk : k ≤ w.tick)
    (hstate : o.state = .nonempty) (hbinding : o.binding = w.guard.binding) :
    Good world (w.wait_for_draft world).2 := by
  unfold Watch.wait_for_draft
  split
  · exact h.explain _
  · rename_i hattempted
    rw [Bool.not_eq_true] at hattempted
    cases hsince : w.guard.since with
    | some time => exact h.wait_since hclock hattempted hsince
    | none =>
      -- The guard notes the time, and waits from then on.
      have hnoted : Good world
          (w.look.set { w.guard with since := some (world.clock w.tick) }) := by
        constructor
        · exact h.patient
        · exact h.separated
        · intro _ time htime
          cases htime
          refine ⟨before, k, o, [], hlog, hclock hk, ?_⟩
          intro j p hp
          cases List.mem_singleton.mp hp
          exact ⟨hstate, hbinding⟩
        · exact h.tried
      exact hnoted.wait_since hclock hattempted rfl

theorem binding_rebound (guard : DraftGuard) (binding : Text) :
    (rebound guard binding).binding = binding := by
  unfold rebound
  split
  · rfl
  · rename_i hsame
    exact not_ne_iff.mp hsame

/-- Each case of `allows` is one of the observations above. -/
theorem Good.allows (h : Good world w) (hclock : Monotone world.clock) :
    Good world (w.allows world).2 := by
  unfold Watch.allows
  simp only
  cases hstate : (world.observe w.tick).state with
  | unknown => exact h.observe_reset _
  | empty => exact h.observe_released (Or.inl hstate) rfl
  | nonempty =>
    simp only
    have hlog : (w.observe world).log = w.log ++ [(w.tick, .observed (world.observe w.tick))] := rfl
    refine Good.wait_for_draft ?_ hclock hlog (Nat.le_succ _) hstate (binding_rebound _ _).symm
    by_cases hsame : w.guard.binding = (world.observe w.tick).binding
    · have hguard : rebound w.guard (world.observe w.tick).binding = w.guard := by
        unfold rebound
        rw [if_neg (not_ne_iff.mpr hsame)]
      change Good world ((w.observe world).set
        { rebound w.guard (world.observe w.tick).binding with
          reason := (world.observe w.tick).reason })
      rw [hguard]
      exact (h.observe_draft hstate hsame.symm).explain _
    · apply h.observe_released (Or.inr ⟨hstate, Ne.symm hsame⟩)
      change (rebound w.guard (world.observe w.tick).binding).since = none
      unfold rebound
      rw [if_pos hsame]

theorem Good.step (h : Good world w) (hclock : Monotone world.clock) (step : Watch.Step) :
    Good world (w.step world step) := by
  cases step with
  | allows => exact h.allows hclock
  | reset reason => exact h.reset reason
  | idle => exact h.look

/-- By induction on the steps. -/
theorem Good.run (h : Good world w) (hclock : Monotone world.clock) (steps : List Watch.Step) :
    Good world (w.run world steps) := by
  induction steps generalizing w with
  | nil => exact h
  | cons step steps ih => exact ih (h.step hclock step)

def SeenEmpty (w : Watch) : Prop :=
  ∃ k o, w.log.getLast? = some (k, Event.observed o) ∧ o.state = .empty ∧
    o.binding = w.guard.binding

theorem seenEmpty_confirm (h : (w.confirm world).1 = true) : SeenEmpty (w.confirm world).2 := by
  unfold Watch.confirm at h ⊢
  simp only at h ⊢
  split at h
  · rename_i hafter
    rw [if_pos hafter]
    exact ⟨w.tick, _, List.getLast?_concat, hafter.2, hafter.1⟩
  · cases h

theorem seenEmpty_clear_draft (h : (w.clear_draft world).1 = true) :
    SeenEmpty (w.clear_draft world).2 := by
  unfold Watch.clear_draft at h ⊢
  simp only at h ⊢
  split at h
  · cases h
  · rename_i hfresh
    rw [if_neg hfresh]
    split at h
    · rename_i hreturned
      rw [if_pos hreturned]
      exact seenEmpty_confirm h
    · cases h

theorem seenEmpty_wait_since (h : (w.wait_since world).1 = true) :
    SeenEmpty (w.wait_since world).2 := by
  unfold Watch.wait_since at h ⊢
  simp only at h ⊢
  split at h
  · cases h
  · rename_i hwait
    rw [if_neg hwait]
    exact seenEmpty_clear_draft h

theorem seenEmpty_wait_for_draft (h : (w.wait_for_draft world).1 = true) :
    SeenEmpty (w.wait_for_draft world).2 := by
  unfold Watch.wait_for_draft at h ⊢
  split at h
  · cases h
  · rename_i hattempted
    rw [if_neg hattempted]
    cases hsince : w.guard.since with
    | some time | none =>
      rw [hsince] at h
      exact seenEmpty_wait_since h

theorem seenEmpty_allows (h : (w.allows world).1 = true) : SeenEmpty (w.allows world).2 := by
  unfold Watch.allows at h ⊢
  simp only at h ⊢
  cases hstate : (world.observe w.tick).state with
  | unknown =>
    rw [hstate] at h
    cases h
  | empty =>
    exact ⟨w.tick, world.observe w.tick, List.getLast?_concat, hstate, (binding_rebound _ _).symm⟩
  | nonempty =>
    rw [hstate] at h
    exact seenEmpty_wait_for_draft h

def Kept (world : World) (guard : DraftGuard) (tick : ℕ) (log : Log) : Prop :=
  ∃ first steps, (start first).run world steps = { guard := guard, tick := tick, log := log }

theorem Kept.step {tick : ℕ} {log : Log} (h : Kept world guard tick log) (step : Watch.Step) :
    Kept world (({ guard := guard, tick := tick, log := log } : Watch).step world step).guard
      (({ guard := guard, tick := tick, log := log } : Watch).step world step).tick
      (({ guard := guard, tick := tick, log := log } : Watch).step world step).log := by
  obtain ⟨first, steps, hrun⟩ := h
  refine ⟨first, steps ++ [step], ?_⟩
  unfold Watch.run at hrun ⊢
  rw [List.foldl_append, hrun]
  rfl

theorem Kept.later {tick later : ℕ} {log : Log} (h : Kept world guard tick log)
    (hle : tick ≤ later) : Kept world guard later log := by
  induction hle with
  | refl => exact h
  | step _ ih => exact ih.step .idle

theorem tick_le_confirm (world : World) (w : Watch) : w.tick ≤ (w.confirm world).2.tick := by
  unfold Watch.confirm
  simp only
  split <;> exact Nat.le_succ _

theorem tick_le_clear_draft (world : World) (w : Watch) :
    w.tick ≤ (w.clear_draft world).2.tick := by
  unfold Watch.clear_draft
  simp only
  split
  · exact Nat.le_succ _
  · split
    · have hconfirm := tick_le_confirm world
        (((w.observe world).set { (w.observe world).guard with clear_attempted := true }).clear
          (world.observe w.tick))
      exact le_trans (Nat.le_add_right w.tick 2) hconfirm
    · exact Nat.le_add_right w.tick 2

theorem tick_le_wait_since (world : World) (w : Watch) : w.tick ≤ (w.wait_since world).2.tick := by
  unfold Watch.wait_since
  simp only
  split
  · exact Nat.le_succ _
  · have hclear := tick_le_clear_draft world w.look
    exact le_trans (Nat.le_succ w.tick) hclear

theorem tick_le_wait_for_draft (world : World) (w : Watch) :
    w.tick ≤ (w.wait_for_draft world).2.tick := by
  unfold Watch.wait_for_draft
  split
  · exact le_rfl
  · cases w.guard.since with
    | some time => exact tick_le_wait_since world w
    | none =>
      have hwait := tick_le_wait_since world
        (w.look.set { w.guard with since := some (world.clock w.tick) })
      exact le_trans (Nat.le_succ w.tick) hwait

theorem tick_le_allows (world : World) (w : Watch) : w.tick ≤ (w.allows world).2.tick := by
  unfold Watch.allows
  simp only
  cases (world.observe w.tick).state with
  | unknown | empty => exact Nat.le_succ _
  | nonempty =>
    have hwait := tick_le_wait_for_draft world ((w.observe world).set
      { rebound (w.observe world).guard (world.observe w.tick).binding with
        reason := (world.observe w.tick).reason })
    exact le_trans (Nat.le_succ w.tick) hwait

/-- Every guard of a service is what a run of one guard leads to. -/
def Guards (world : World) (s : ExecutionService) : Prop :=
  ∀ agent_name guarded, s.draft_guards agent_name = some guarded →
    Kept world guarded.guard s.tick guarded.log

variable {s : ExecutionService}

theorem Guards.kept (h : Guards world s) (job : Job) :
    Kept world (s.watch_of job).guard (s.watch_of job).tick (s.watch_of job).log := by
  unfold ExecutionService.watch_of ExecutionService.guard_of
  cases hguard : s.draft_guards job.agent_name with
  | none => exact ⟨s.tick, [], rfl⟩
  | some previous =>
    simp only
    split
    · exact h job.agent_name previous hguard
    · exact ⟨s.tick, [], rfl⟩

theorem Guards.put (h : Guards world s) {agent_name : Text} {guarded : Option Guarded} {tick : ℕ}
    (htick : s.tick ≤ tick) (hguarded : ∀ g, guarded = some g → Kept world g.guard tick g.log) :
    Guards world (s.put agent_name guarded tick) := by
  intro name g hg
  unfold ExecutionService.put at hg
  simp only at hg
  split at hg
  · exact hguarded g hg
  · exact (h name g hg).later htick

theorem guards_draft_preclaim (h : Guards world s) (job : Job)
    (target : Target) : Guards world (s.draft_preclaim world job target).2 := by
  have hkept := h.kept job
  have hallowed := hkept.step .allows
  have htick : s.tick ≤ ((s.watch_of job).allows world).2.tick :=
    tick_le_allows world (s.watch_of job)
  unfold ExecutionService.draft_preclaim
  simp only
  cases target with
  | unavailable =>
    apply h.put le_rfl
    intro g hg
    cases hg
    exact hkept.step (.reset (asciiText "binding_unavailable"))
  | unguarded =>
    apply h.put le_rfl
    intro g hg
    cases hg
  | guarded =>
    simp only
    split
    · apply h.put htick
      intro g hg
      cases hg
    · apply h.put htick
      intro g hg
      cases hg
      exact hallowed

def claims (world : World) (s : ExecutionService) (jobs : List (Job × Target)) : ExecutionService :=
  jobs.foldl (fun s job => (s.draft_preclaim world job.1 job.2).2) s

theorem guards_claims (h : Guards world s) (jobs : List (Job × Target)) :
    Guards world (claims world s jobs) := by
  induction jobs generalizing s with
  | nil => exact h
  | cons job jobs ih => exact ih (guards_draft_preclaim h job.1 job.2)

/-- Clears are patient and separated, and only an empty composer lets a message in. -/
structure Safe (world : World) (w : Watch) : Prop where
  patient : Patient world w.log
  separated : Separated w.log
  seenEmpty : (w.allows world).1 = true → SeenEmpty (w.allows world).2

/-- In every run of a guard, on a clock that does not go back: a composer is cleared only after a
draft of `WAIT_SECONDS` on the guard's binding, without an unknown or empty composer or another
binding in between, up to the observation directly before the clear; between two clears there is
an observation of an empty composer or of another binding; and a message is let in only if the last
observation is of an empty composer on the guard's binding.  So it is for the guards with which a
service claims jobs. -/
theorem draft_clears_guarded (world : World) (hclock : Monotone world.clock) :
    (∀ (tick : ℕ) (steps : List Watch.Step), Safe world ((start tick).run world steps)) ∧
      ∀ (tick : ℕ) (jobs : List (Job × Target)) (job : Job),
        let s := claims world { draft_guards := fun _ => none, tick := tick } jobs
        Safe world (s.watch_of job) ∧ Safe world ((s.watch_of job).allows world).2 := by
  have hsafe : ∀ (tick : ℕ) (steps : List Watch.Step),
      Safe world ((start tick).run world steps) := by
    intro tick steps
    have hgood := (good_start world tick).run hclock steps
    exact ⟨hgood.patient, hgood.separated, seenEmpty_allows⟩
  have hkept : ∀ w : Watch, Kept world w.guard w.tick w.log → Safe world w := by
    rintro w ⟨first, steps, hrun⟩
    have hw := hsafe first steps
    rw [hrun] at hw
    exact hw
  refine ⟨hsafe, ?_⟩
  intro tick jobs job
  have hguards : Guards world { draft_guards := fun _ => none, tick := tick } := by
    intro agent_name guarded h
    cases h
  have hwatch := (guards_claims hguards jobs).kept job
  exact ⟨hkept _ hwatch, hkept _ (hwatch.step .allows)⟩

/-- A draft that cannot be read once, and is cleared; then another, which moves to another
binding before it is. -/
def draftWorld : World where
  observe tick :=
    { state := if tick = 3 then .unknown
        else if tick ≤ 11 ∨ 14 ≤ tick ∧ tick ≤ 26 then .nonempty else .empty
      binding := asciiText (if tick ≤ 17 then "pane" else "other")
      reason := [] }
  clock tick := 50 * tick
  clear _ := true

theorem draft_clears_guarded_twice :
    Safe draftWorld ((start 0).run draftWorld (List.replicate 10 .allows)) ∧
      ((start 0).run draftWorld (List.replicate 10 .allows)).log.countP
        (fun x => x.2 matches .cleared _) = 2 :=
  ⟨(draft_clears_guarded draftWorld fun _ _ h =>
      mul_le_mul_of_nonneg_left (Nat.cast_le.mpr h) (by norm_num)).1 0 _,
    by decide +kernel⟩

end ClaudeCodeBridge.Analysis.DraftGuards
