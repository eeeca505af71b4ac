import ClaudeCodeBridge.Model.RecentJobs
import ClaudeCodeBridge.Analysis.JsonlReads

/-!
# What the view of recent jobs shows

The loop ends (`deepen_spec`): at the first of its limits at which the query finds enough jobs, or
at the greatest.  Reading more of an agent's records never loses a job that has been found
(`agent_recent_jobs_subperm`), so both queries show equally many jobs, but not always the same.
-/

set_option autoImplicit false

namespace ClaudeCodeBridge.Analysis.RecentJobs

open Program
open Model
open Model.RecentJobs

variable {histories : JobHistories} {agent_names : List AgentName} {statuses : List JobStatus}
  {query : ℕ → List ProjectViewJobSummary} {result_limit cap limit : ℕ}

theorem lt_next_limit (h : limit < cap) : limit < next_limit cap limit := by
  unfold next_limit
  omega

theorem next_limit_le (cap limit : ℕ) : next_limit cap limit ≤ cap := by
  unfold next_limit
  omega

theorem first_limit_le (cap : ℕ) (initial : Option ℕ) : first_limit cap initial ≤ cap := by
  unfold first_limit
  cases initial with
  | none | some initial => dsimp only; split <;> omega

theorem first_limit_cap (cap : ℕ) : first_limit cap (some cap) = cap := by
  unfold first_limit
  dsimp only
  split <;> omega

/-- The limits that the loop takes, one a turn. -/
def deepened (cap start turn : ℕ) : ℕ := (next_limit cap)^[turn] start

theorem deepened_le {start : ℕ} (h : start ≤ cap) (turn : ℕ) : deepened cap start turn ≤ cap := by
  cases turn with
  | zero => exact h
  | succ turn =>
    unfold deepened
    rw [Function.iterate_succ_apply']
    exact next_limit_le _ _

/-- Where the loop ends: at the first limit that finds enough, or at the greatest. -/
structure EndsAfter (query : ℕ → List ProjectViewJobSummary) (result_limit cap start turns : ℕ) :
    Prop where
  before : ∀ turn < turns, deepened cap start turn < cap ∧
    (query (deepened cap start turn)).length < result_limit
  enough : cap ≤ deepened cap start turns ∨ result_limit ≤ (query (deepened cap start turns)).length

/-- The loop ends.  The induction is on how far its limit is from the greatest. -/
theorem deepen_spec (query : ℕ → List ProjectViewJobSummary) (result_limit : ℕ) {start : ℕ}
    (hle : start ≤ cap) :
    ∃ last, EndsAfter query result_limit cap start last ∧
      ∀ turns > last, deepen query result_limit cap turns start =
        some (query (deepened cap start last)) := by
  induction hgap : cap - start using Nat.strong_induction_on generalizing start with
  | _ gap ih =>
    by_cases hend : result_limit ≤ (query start).length ∨ cap ≤ start
    · refine ⟨0, ⟨fun turn hturn => absurd hturn (Nat.not_lt_zero turn), hend.symm⟩, ?_⟩
      intro turns hturns
      obtain ⟨turns, rfl⟩ := Nat.exists_eq_add_of_lt hturns
      rw [Nat.zero_add, deepen, if_pos hend]
      rfl
    · have hmore := not_or.mp hend
      have hlt := lt_next_limit (Nat.lt_of_not_le hmore.2)
      obtain ⟨last, hends, hturns⟩ := ih (cap - next_limit cap start) (by omega)
        (next_limit_le cap start) rfl
      refine ⟨last + 1, ⟨?_, hends.enough⟩, ?_⟩
      · intro turn hturn
        cases turn with
        | zero => exact ⟨Nat.lt_of_not_le hmore.2, Nat.lt_of_not_le hmore.1⟩
        | succ turn => exact hends.before turn (by omega)
      · intro turns hlast
        obtain ⟨turns, rfl⟩ := Nat.exists_eq_add_of_lt hlast
        rw [deepen, if_neg hend, hturns _ (by omega)]
        rfl

theorem rtake_of_le {α : Type} (records : List α) {fewer more : ℕ} (h : fewer ≤ more) :
    ∃ older, records.rtake more = older ++ records.rtake fewer := by
  refine ⟨(records.rtake more).take (records.length - fewer - (records.length - more)), ?_⟩
  have hsplit := List.take_append_drop (records.length - fewer - (records.length - more))
    (records.rtake more)
  have htail : (records.rtake more).drop (records.length - fewer - (records.length - more)) =
      records.rtake fewer := by
    unfold List.rtake
    rw [List.drop_drop]
    congr 1
    omega
  rw [htail] at hsplit
  exact hsplit.symm

theorem agent_recent_jobs_subperm (histories : JobHistories) (statuses : List JobStatus)
    (agent_name : AgentName) {fewer more : ℕ} (h : fewer ≤ more) :
    (agent_recent_jobs histories statuses fewer agent_name).Subperm
      (agent_recent_jobs histories statuses more agent_name) := by
  obtain ⟨older, holder⟩ := rtake_of_le (histories agent_name) h
  unfold agent_recent_jobs list_agent_tail
  dsimp only
  rw [holder]
  have hfound : (collapse JobRecord.job_id ((histories agent_name).rtake fewer)).Subperm
      (collapse JobRecord.job_id (older ++ (histories agent_name).rtake fewer)) := by
    apply List.subperm_of_subset (collapse_nodup JobRecord.job_id _).of_map
    intro record hrecord
    exact mem_collapse_append_list JobRecord.job_id hrecord older
  obtain ⟨found, hperm, hsublist⟩ := hfound.filter fun record => record.status ∈ statuses
  exact ⟨found.map project_view_job_summary_from_job, hperm.map _, hsublist.map _⟩

theorem recent_jobs_subperm (histories : JobHistories) (agent_names : List AgentName)
    (statuses : List JobStatus) {fewer more : ℕ} (h : fewer ≤ more) :
    (agent_names.flatMap (agent_recent_jobs histories statuses fewer)).Subperm
      (agent_names.flatMap (agent_recent_jobs histories statuses more)) := by
  induction agent_names with
  | nil => exact List.Subperm.refl _
  | cons agent_name agent_names ih =>
    rw [List.flatMap_cons, List.flatMap_cons]
    exact (agent_recent_jobs_subperm histories statuses agent_name h).append ih

theorem length_query (histories : JobHistories) (agent_names : List AgentName)
    (statuses : List JobStatus) (result_limit limit : ℕ) :
    (list_project_view_recent_jobs_python histories agent_names statuses result_limit
      limit).length =
        min result_limit
          (agent_names.flatMap (agent_recent_jobs histories statuses limit)).length := by
  unfold list_project_view_recent_jobs_python sort_by_update
  rw [List.length_take, List.length_insertionSort]

theorem length_query_mono (histories : JobHistories) (agent_names : List AgentName)
    (statuses : List JobStatus) (result_limit : ℕ) {fewer more : ℕ} (h : fewer ≤ more) :
    (list_project_view_recent_jobs_python histories agent_names statuses result_limit
      fewer).length ≤
        (list_project_view_recent_jobs_python histories agent_names statuses result_limit
          more).length := by
  rw [length_query, length_query]
  have hlength := (recent_jobs_subperm histories agent_names statuses h).length_le
  omega

theorem mem_query {job : ProjectViewJobSummary}
    (h : job ∈ list_project_view_recent_jobs_python histories agent_names statuses result_limit
      limit) :
    job ∈ agent_names.flatMap (agent_recent_jobs histories statuses limit) := by
  have hsorted := List.mem_of_mem_take h
  rwa [sort_by_update, List.mem_insertionSort] at hsorted

theorem query_no_agents : list_project_view_recent_jobs_python histories [] statuses result_limit
    limit = [] := by
  unfold list_project_view_recent_jobs_python
  rw [List.flatMap_nil]
  exact List.take_nil

theorem query_no_records : list_project_view_recent_jobs_python histories agent_names statuses
    result_limit 0 = [] := by
  apply List.eq_nil_of_length_eq_zero
  rw [length_query]
  have hnone : agent_names.flatMap (agent_recent_jobs histories statuses 0) = [] := by
    apply List.flatMap_eq_nil_iff.mpr
    intro agent_name _
    unfold agent_recent_jobs list_agent_tail
    rw [List.rtake_zero]
    rfl
  rw [hnone, List.length_nil, Nat.min_zero]

theorem query_eq_nil (h : agent_names = [] ∨ cap = 0 ∨ result_limit = 0) (hle : limit ≤ cap) :
    list_project_view_recent_jobs_python histories agent_names statuses result_limit limit = [] := by
  rcases h with rfl | rfl | rfl
  · exact query_no_agents
  · obtain rfl : limit = 0 := by omega
    exact query_no_records
  · rfl

theorem recent_jobs_spec (histories : JobHistories) (agent_names : List AgentName)
    (per_agent_limit result_limit initial : ℕ) (statuses : List JobStatus) :
    ∃ last, EndsAfter (list_project_view_recent_jobs_python histories agent_names
        (status_values statuses) result_limit) result_limit per_agent_limit
        (first_limit per_agent_limit (some initial)) last ∧
      ∀ turns > last, list_project_view_recent_jobs histories agent_names per_agent_limit
          result_limit statuses (some initial) turns =
        .ok (some (list_project_view_recent_jobs_python histories agent_names
          (status_values statuses) result_limit
          (deepened per_agent_limit (first_limit per_agent_limit (some initial)) last))) := by
  have hstart := first_limit_le per_agent_limit (some initial)
  obtain ⟨last, hends, hturns⟩ := deepen_spec (list_project_view_recent_jobs_python histories
    agent_names (status_values statuses) result_limit) result_limit hstart
  refine ⟨last, hends, ?_⟩
  intro turns hlast
  have hper_agent : ¬ (per_agent_limit : ℤ) < 0 := by omega
  have hresult : ¬ (result_limit : ℤ) < 0 := by omega
  have hinitial : ¬ (Option.any (fun limit : ℤ => limit < 0) (some (initial : ℤ))) = true := by
    simp
  unfold list_project_view_recent_jobs
  rw [if_neg hper_agent, if_neg hresult, if_neg hinitial]
  by_cases hnone : agent_names = [] ∨ per_agent_limit = 0 ∨ result_limit = 0
  · rw [if_pos (by simpa using hnone), query_eq_nil hnone (deepened_le hstart last)]
  · rw [if_neg (by simpa using hnone), ← hturns turns hlast]
    rfl

/-- The query with adaptive limits ends, with the jobs that the query has at the first of its
limits at which it finds enough, or at the greatest.  They are as many as the full query has, and
each is one that the full query chooses from; when no limit below the greatest finds enough, they
are those of the full query. -/
theorem recent_jobs_deepened (histories : JobHistories) (agent_names : List AgentName)
    (per_agent_limit result_limit initial : ℕ) (statuses : List JobStatus) :
    ∃ jobs full last,
      (∀ turns > last, list_project_view_recent_jobs histories agent_names per_agent_limit
        result_limit statuses (some initial) turns = .ok (some jobs)) ∧
      (∀ turns > 0, list_project_view_recent_jobs histories agent_names per_agent_limit
        result_limit statuses (some per_agent_limit) turns = .ok (some full)) ∧
      (let query := list_project_view_recent_jobs_python histories agent_names
          (status_values statuses) result_limit
       let limits := deepened per_agent_limit (first_limit per_agent_limit (some initial))
       jobs = query (limits last) ∧ full = query per_agent_limit ∧
        (limits last = per_agent_limit ∨ jobs.length = result_limit) ∧
        (∀ turn < last, limits turn < per_agent_limit ∧
          (query (limits turn)).length < result_limit) ∧
        ((∀ turn, limits turn < per_agent_limit → (query (limits turn)).length < result_limit) →
          jobs = full)) ∧
      jobs.length = full.length ∧
      ∀ job ∈ jobs, job ∈ agent_names.flatMap
        (agent_recent_jobs histories (status_values statuses) per_agent_limit) := by
  obtain ⟨last, hends, hturns⟩ := recent_jobs_spec histories agent_names per_agent_limit
    result_limit initial statuses
  obtain ⟨only, hfull, hfull_turns⟩ := recent_jobs_spec histories agent_names per_agent_limit
    result_limit per_agent_limit statuses
  have hstart := first_limit_le per_agent_limit (some initial)
  have hlast := deepened_le hstart last
  rw [first_limit_cap] at hfull hfull_turns
  -- the full query takes one turn
  obtain rfl : only = 0 := by
    by_contra hne
    exact Nat.lt_irrefl _ (hfull.before 0 (Nat.pos_of_ne_zero hne)).1
  have hlength := length_query_mono histories agent_names (status_values statuses) result_limit
    hlast
  have hmost := length_query histories agent_names (status_values statuses) result_limit
    per_agent_limit
  have henough : deepened per_agent_limit (first_limit per_agent_limit (some initial)) last =
      per_agent_limit ∨ (list_project_view_recent_jobs_python histories agent_names
        (status_values statuses) result_limit (deepened per_agent_limit
          (first_limit per_agent_limit (some initial)) last)).length = result_limit := by
    rcases hends.enough with hcap | hfound
    · exact Or.inl (by omega)
    · exact Or.inr (by omega)
  refine ⟨_, _, last, hturns, hfull_turns, ⟨rfl, rfl, henough, hends.before, ?_⟩, ?_, ?_⟩
  · intro hfew
    rcases Nat.lt_or_ge (deepened per_agent_limit (first_limit per_agent_limit (some initial))
      last) per_agent_limit with hless | hcap
    · have hshort := hfew last hless
      omega
    · have heq : deepened per_agent_limit (first_limit per_agent_limit (some initial)) last =
        per_agent_limit := by omega
      rw [heq]
      rfl
  · rcases henough with heq | hfound
    · rw [heq]
      rfl
    · change _ = (list_project_view_recent_jobs_python histories agent_names
        (status_values statuses) result_limit per_agent_limit).length
      omega
  · intro job hjob
    exact (recent_jobs_subperm histories agent_names (status_values statuses) hlast).subset
      (mem_query hjob)

/-- A job of an agent that has completed, or still runs. -/
def plain_record (agent_name : AgentName) (job_id : JobId) (status : JobStatus)
    (updated_at : Timestamp) : JobRecord :=
  { job_id := job_id, submission_id := none, agent_name := agent_name, provider := "codex"
    request :=
      { to_agent := some agent_name, from_actor := .user, body := "", task_id := none
        reply_to := none, message_type := .ask, delivery_scope := .single
        silence_on_success := false, route_options := .empty }
    status := status, terminal_decision := none, cancel_requested_at := none
    created_at := updated_at, updated_at := updated_at, provider_options := .empty }

/-- The last record of the second agent is of a job that runs, after one that has completed later
than that of the first agent. -/
def hidden_histories : JobHistories := fun agent_name =>
  if agent_name = 1 then [plain_record 1 1 .completed 1]
  else [plain_record 2 2 .completed 5, plain_record 2 3 .running 6]

/-- One job is asked for, from one record of each agent on. -/
theorem recent_jobs_not_full :
    ¬ ∀ (histories : JobHistories) (agent_names : List AgentName)
        (per_agent_limit result_limit initial : ℕ) (statuses : List JobStatus),
      initial ≤ per_agent_limit → ∀ turns jobs full,
        list_project_view_recent_jobs histories agent_names per_agent_limit result_limit statuses
          (some initial) turns = .ok (some jobs) →
        list_project_view_recent_jobs histories agent_names per_agent_limit result_limit statuses
          (some per_agent_limit) turns = .ok (some full) →
        jobs = full := by
  intro h
  have hsame := h hidden_histories [1, 2] 2 1 1 [] (by decide) 1
    [project_view_job_summary_from_job (plain_record 1 1 .completed 1)]
    [project_view_job_summary_from_job (plain_record 2 2 .completed 5)] (by decide) (by decide)
  revert hsame
  decide

end ClaudeCodeBridge.Analysis.RecentJobs
