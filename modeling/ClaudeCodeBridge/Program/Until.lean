import Mathlib.Data.List.Basic

/-!
# Folds that stop early

A loop over a list that stops as soon as its state says so.  A list that comes in two parts is
folded as one: the loop goes on from where it has not stopped (`foldUntil_append_of_go`), and a
loop that has stopped reads no further (`foldUntil_append_of_stop`).  What a list has up to and
including the first of a kind is `upTo`.
-/

set_option autoImplicit false

namespace ClaudeCodeBridge.Program

variable {σ α : Type} {stop : σ → Bool} {step : σ → α → σ} {s : σ} {xs ys : List α}

/-- Step through a list until a step has stopped. -/
def foldUntil (stop : σ → Bool) (step : σ → α → σ) (s : σ) : List α → σ
  | [] => s
  | x :: xs => if stop (step s x) then step s x else foldUntil stop step (step s x) xs

theorem foldUntil_nil : foldUntil stop step s [] = s := rfl

theorem foldUntil_append_of_stop (hs : stop s = false)
    (h : stop (foldUntil stop step s xs) = true) (ys : List α) :
    foldUntil stop step s (xs ++ ys) = foldUntil stop step s xs := by
  induction xs generalizing s with
  | nil =>
    rw [foldUntil_nil, hs] at h
    cases h
  | cons x xs ih =>
    rw [List.cons_append, foldUntil, foldUntil]
    rw [foldUntil] at h
    by_cases hx : stop (step s x) = true
    · rw [if_pos hx, if_pos hx]
    · rw [if_neg hx] at h
      rw [if_neg hx, if_neg hx]
      exact ih (Bool.eq_false_iff.mpr hx) h

theorem foldUntil_append_of_go (h : stop (foldUntil stop step s xs) = false) (ys : List α) :
    foldUntil stop step s (xs ++ ys) = foldUntil stop step (foldUntil stop step s xs) ys := by
  induction xs generalizing s with
  | nil => rfl
  | cons x xs ih =>
    rw [List.cons_append, foldUntil]
    rw [foldUntil] at h ⊢
    by_cases hx : stop (step s x) = true
    · rw [if_pos hx, hx] at h
      cases h
    · rw [if_neg hx] at h
      rw [if_neg hx, if_neg hx]
      exact ih h

theorem foldUntil_keeps {P : σ → Prop} (hs : stop s = false) (h : P s)
    (hstep : ∀ s, stop s = false → P s → ∀ x ∈ xs, P (step s x)) :
    P (foldUntil stop step s xs) := by
  induction xs generalizing s with
  | nil => exact h
  | cons x xs ih =>
    have hx := hstep s hs h x List.mem_cons_self
    rw [foldUntil]
    split
    · exact hx
    · rename_i hgo
      exact ih (Bool.eq_false_iff.mpr hgo) hx fun s hs h y hy =>
        hstep s hs h y (List.mem_cons_of_mem x hy)

theorem foldUntil_map {τ : Type} {stop' : τ → Bool} {step' : τ → α → τ} (f : σ → τ)
    (hstop : ∀ s, stop' (f s) = stop s) (hstep : ∀ s x, step' (f s) x = f (step s x))
    (s : σ) (xs : List α) :
    foldUntil stop' step' (f s) xs = f (foldUntil stop step s xs) := by
  induction xs generalizing s with
  | nil => rfl
  | cons x xs ih =>
    rw [foldUntil, foldUntil, hstep, hstop]
    split
    · rfl
    · exact ih (step s x)

/-- A list up to and including the first of a kind. -/
def upTo (p : α → Bool) : List α → List α
  | [] => []
  | x :: xs => if p x then [x] else x :: upTo p xs

variable {p : α → Bool}

theorem upTo_of_none (h : ∀ x ∈ xs, p x = false) : upTo p xs = xs := by
  induction xs with
  | nil => rfl
  | cons x xs ih =>
    rw [upTo, h x List.mem_cons_self, if_neg Bool.false_ne_true,
      ih fun y hy => h y (List.mem_cons_of_mem x hy)]

theorem upTo_append_of_none (h : ∀ x ∈ xs, p x = false) (ys : List α) :
    upTo p (xs ++ ys) = xs ++ upTo p ys := by
  induction xs with
  | nil => rfl
  | cons x xs ih =>
    rw [List.cons_append, upTo, h x List.mem_cons_self, if_neg Bool.false_ne_true,
      ih fun y hy => h y (List.mem_cons_of_mem x hy), List.cons_append]

theorem upTo_of_last {last : α} (h : ∀ x ∈ xs, p x = false) (hlast : p last = true) :
    upTo p (xs ++ [last]) = xs ++ [last] := by
  rw [upTo_append_of_none h, upTo, if_pos hlast]

theorem upTo_append_of_some {x : α} (hx : x ∈ xs) (h : p x = true) (ys : List α) :
    upTo p (xs ++ ys) = upTo p xs := by
  induction xs with
  | nil => cases hx
  | cons y xs ih =>
    rw [List.cons_append, upTo, upTo]
    by_cases hy : p y = true
    · rw [if_pos hy, if_pos hy]
    · rw [if_neg hy, if_neg hy]
      obtain rfl | hmem := List.mem_cons.mp hx
      · exact absurd h hy
      · rw [ih hmem]

end ClaudeCodeBridge.Program
