import Mathlib.Order.Nat
import Mathlib.Tactic.Common

/-!
# The last and the best of a log

Two ways to single out a record: the last that satisfies a test, and the best by a
comparison, the first of equals.  They agree where the last is better than all others
(`foldl_selectBest`).
-/

set_option autoImplicit false

namespace ClaudeCodeBridge.Program

variable {ρ : Type}

variable {m : ρ}

theorem getLast?_filter_of_imp {p q : ρ → Bool} {log : List ρ}
    (h : (log.filter p).getLast? = some m) (hm : q m) (himp : ∀ r ∈ log, q r → p r) :
    (log.filter q).getLast? = some m := by
  have hfilter : log.filter q = (log.filter p).filter q := by
    rw [List.filter_filter]
    apply List.filter_congr
    intro r hr
    cases hq : q r with
    | false => rfl
    | true => rw [himp r hr hq, Bool.and_self]
  obtain ⟨rest, hrest⟩ := List.getLast?_eq_some_iff.mp h
  rw [hfilter, hrest, List.filter_append, List.filter_cons_of_pos hm, List.filter_nil,
    List.getLast?_concat]

/-- One turn of a search for the best. -/
def selectBest (better : ρ → ρ → Bool) (current : Option ρ) (record : ρ) : Option ρ :=
  match current with
  | none => some record
  | some current => if better current record then some record else some current

variable {better : ρ → ρ → Bool}

/-- **A record that is better than all others is found.** -/
theorem foldl_selectBest {log : List ρ} (hm : m ∈ log) (hself : better m m = false)
    (h : ∀ r ∈ log, r = m ∨ better r m = true ∧ better m r = false) :
    log.foldl (selectBest better) none = some m := by
  have hfold : ∀ (rest : List ρ) (current : Option ρ),
      (∀ r ∈ rest, r = m ∨ better r m = true ∧ better m r = false) →
      (∀ c, current = some c → c = m ∨ better c m = true ∧ better m c = false) →
      current = some m ∨ m ∈ rest → rest.foldl (selectBest better) current = some m := by
    intro rest
    induction rest with
    | nil =>
      intro current _ _ hfound
      exact hfound.resolve_right (by simp)
    | cons r rest ih =>
      intro current hrest hcurrent hfound
      refine ih _ (fun x hx => hrest x (List.mem_cons_of_mem r hx)) ?_ ?_
      · -- what is kept is `m` or worse
        intro c hc
        cases current with
        | none =>
          rw [← show r = c from Option.some.inj hc]
          exact hrest r List.mem_cons_self
        | some x =>
          rw [selectBest] at hc
          split at hc
          · rw [← Option.some.inj hc]
            exact hrest r List.mem_cons_self
          · rw [← Option.some.inj hc]
            exact hcurrent x rfl
      · -- `m` is kept once it is met
        rcases hfound with rfl | hmem
        · left
          rcases hrest r List.mem_cons_self with rfl | ⟨_, hworse⟩
          · simp [selectBest, hself]
          · simp [selectBest, hworse]
        · rcases List.mem_cons.mp hmem with rfl | hmem
          · left
            cases current with
            | none => rfl
            | some x =>
              rcases hcurrent x rfl with rfl | ⟨hbetter, _⟩
              · simp [selectBest, hself]
              · simp [selectBest, hbetter]
          · exact Or.inr hmem
  exact hfold log none h (by simp) (Or.inr hm)

end ClaudeCodeBridge.Program
