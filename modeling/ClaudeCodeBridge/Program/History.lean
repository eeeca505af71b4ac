import Mathlib.Data.List.Induction

/-!
# Histories of events

A history lists what happened, the latest event last.  `Lawful enabled h` says that every
event was enabled by the events before it; what holds of a run is then read off its
history.  A history is extended one event at a time (`Lawful.append`), and each event and
each first part of a lawful history is lawful again (`Lawful.at`, `Lawful.first`).
-/

set_option autoImplicit false

namespace ClaudeCodeBridge.Program

variable {η : Type} {enabled : List η → η → Prop} {h before after : List η} {e : η}

/-- Every event was enabled by those before it. -/
def Lawful (enabled : List η → η → Prop) (h : List η) : Prop :=
  ∀ before e after, h = before ++ e :: after → enabled before e

theorem lawful_nil : Lawful enabled [] := by
  intro before e after h
  simp at h

theorem Lawful.append (hh : Lawful enabled h) (he : enabled h e) : Lawful enabled (h ++ [e]) := by
  intro before e' after heq
  rcases List.eq_nil_or_concat after with rfl | ⟨rest, last, rfl⟩
  · obtain ⟨rfl, hlast⟩ := List.append_inj' heq rfl
    rw [List.cons.injEq] at hlast
    rw [← hlast.1]
    exact he
  · rw [List.concat_eq_append, ← List.cons_append, ← List.append_assoc] at heq
    obtain ⟨rfl, _⟩ := List.append_inj' heq rfl
    exact hh before e' rest rfl

theorem Lawful.first (hh : Lawful enabled (before ++ after)) : Lawful enabled before := by
  intro first e rest heq
  refine hh first e (rest ++ after) ?_
  rw [heq, List.append_assoc, List.cons_append]

theorem Lawful.at (hh : Lawful enabled (before ++ e :: after)) : enabled before e :=
  hh before e after rfl

theorem Lawful.last (hh : Lawful enabled (h ++ [e])) : Lawful enabled h ∧ enabled h e :=
  ⟨hh.first, hh.at⟩

theorem Lawful.keeps {P : List η → Prop} (hh : Lawful enabled (before ++ after))
    (hP : P before) (hstep : ∀ h e, Lawful enabled h → enabled h e → P h → P (h ++ [e])) :
    P (before ++ after) := by
  induction after using List.reverseRecOn with
  | nil => simpa using hP
  | append_singleton after e ih =>
    rw [← List.append_assoc] at hh ⊢
    obtain ⟨hfirst, henabled⟩ := hh.last
    exact hstep _ _ hfirst henabled (ih hfirst)

end ClaudeCodeBridge.Program
