import Mathlib.Data.List.Basic

/-!
# Runs, and lists that keep their places

`Throughout next Good s as` says that every step of a run is good in the state it is taken in;
`throughout_iff` compares two such properties by one step.

`KeepsPlaces R xs ys` says that the entries of `xs` are still at their places in `ys`, changed
as `R` allows; what is new in `ys` stands after them.
-/

set_option autoImplicit false

namespace ClaudeCodeBridge.Program

section

variable {σ α : Type} {next : σ → α → σ} {Good Other : σ → α → Prop} {I : σ → Prop}

/-- Every step of the run is good where it is taken. -/
def Throughout (next : σ → α → σ) (Good : σ → α → Prop) : σ → List α → Prop
  | _, [] => True
  | s, a :: as => Good s a ∧ Throughout next Good (next s a) as

theorem Throughout.last {as : List α} {a : α} {s : σ} (h : Throughout next Good s (as ++ [a])) :
    Good (as.foldl next s) a := by
  induction as generalizing s with
  | nil => exact h.1
  | cons b as ih => exact ih h.2

/-- Two properties of steps that agree wherever the invariant holds agree on runs, if what has
the second keeps the invariant. -/
theorem throughout_iff {as : List α} (hagree : ∀ s, I s → ∀ a ∈ as, (Good s a ↔ Other s a))
    (hkeeps : ∀ s, I s → ∀ a ∈ as, Other s a → I (next s a)) {s : σ} (hs : I s) :
    Throughout next Good s as ↔ Throughout next Other s as := by
  induction as generalizing s with
  | nil => exact Iff.rfl
  | cons a as ih =>
    have hhead := hagree s hs a List.mem_cons_self
    constructor
    · rintro ⟨hgood, hrest⟩
      have hnext := hkeeps s hs a List.mem_cons_self (hhead.mp hgood)
      refine ⟨hhead.mp hgood, (ih ?_ ?_ hnext).mp hrest⟩
      · exact fun t ht b hb => hagree t ht b (List.mem_cons_of_mem _ hb)
      · exact fun t ht b hb => hkeeps t ht b (List.mem_cons_of_mem _ hb)
    · rintro ⟨hother, hrest⟩
      have hnext := hkeeps s hs a List.mem_cons_self hother
      refine ⟨hhead.mpr hother, (ih ?_ ?_ hnext).mpr hrest⟩
      · exact fun t ht b hb => hagree t ht b (List.mem_cons_of_mem _ hb)
      · exact fun t ht b hb => hkeeps t ht b (List.mem_cons_of_mem _ hb)

end

variable {α : Type} {R : α → α → Prop} {xs ys zs : List α}

/-- Each entry of `xs` is at its place in `ys`, changed as `R` allows. -/
def KeepsPlaces (R : α → α → Prop) (xs ys : List α) : Prop :=
  ∀ (i : ℕ) (x : α), xs[i]? = some x → ∃ y, ys[i]? = some y ∧ R x y

theorem keepsPlaces_refl (hR : ∀ x, R x x) : KeepsPlaces R xs xs :=
  fun _ x hx => ⟨x, hx, hR x⟩

theorem KeepsPlaces.trans (hR : ∀ {x y z}, R x y → R y z → R x z) (h : KeepsPlaces R xs ys)
    (h' : KeepsPlaces R ys zs) : KeepsPlaces R xs zs := by
  intro i x hx
  obtain ⟨y, hy, hxy⟩ := h i x hx
  obtain ⟨z, hz, hyz⟩ := h' i y hy
  exact ⟨z, hz, hR hxy hyz⟩

theorem keepsPlaces_append (hR : ∀ x, R x x) (added : List α) : KeepsPlaces R xs (xs ++ added) := by
  intro i x hx
  have hi : i < xs.length := (List.getElem?_eq_some_iff.mp hx).1
  refine ⟨x, ?_, hR x⟩
  rw [List.getElem?_append_left hi]
  exact hx

theorem keepsPlaces_map {f : α → α} (hf : ∀ x ∈ xs, R x (f x)) : KeepsPlaces R xs (xs.map f) := by
  intro i x hx
  refine ⟨f x, ?_, hf x (List.mem_of_getElem? hx)⟩
  rw [List.getElem?_map, hx]
  rfl

end ClaudeCodeBridge.Program
