import Mathlib.Logic.Function.Basic

/-!
# Moves

A map from processes, threads or handlers to the points at which they are, and one of them
that moves.  What is said of a point other than the one that is reached was said before
(`Moved.said`), and what is not said of the point that is left is still said
(`Moved.stays`).
-/

set_option autoImplicit false

namespace ClaudeCodeBridge.Program

variable {ι α : Type} {f f' : ι → α} {i j : ι} {a : α}

/-- `i` has moved to `a`, and no other has moved. -/
structure Moved (f f' : ι → α) (i : ι) (a : α) : Prop where
  self : f' i = a
  other : ∀ j, j ≠ i → f' j = f j

theorem moved_update [DecidableEq ι] (f : ι → α) (i : ι) (a : α) :
    Moved f (Function.update f i a) i a :=
  ⟨Function.update_self .., fun _ hj => Function.update_of_ne hj ..⟩

theorem Moved.said (hm : Moved f f' i a) (P : α → Prop) (h : ¬ P a) (hj : P (f' j)) :
    j ≠ i ∧ P (f j) := by
  have hne : j ≠ i := by
    rintro rfl
    rw [hm.self] at hj
    exact h hj
  rw [hm.other j hne] at hj
  exact ⟨hne, hj⟩

theorem Moved.stays (hm : Moved f f' i a) (P : α → Prop) (h : ¬ P (f i)) (hj : P (f j)) :
    j ≠ i ∧ P (f' j) := by
  have hne : j ≠ i := by
    rintro rfl
    exact h hj
  rw [← hm.other j hne] at hj
  exact ⟨hne, hj⟩

theorem Moved.cases (hm : Moved f f' i a) (j : ι) : (j = i ∧ f' j = a) ∨ (j ≠ i ∧ f' j = f j) := by
  by_cases hj : j = i
  · rw [hj]
    exact .inl ⟨rfl, hm.self⟩
  · exact .inr ⟨hj, hm.other j hj⟩

end ClaudeCodeBridge.Program
