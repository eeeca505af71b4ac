import Mathlib.Data.List.Basic

/-!
# Lines of a stream

A stream is cut into lines at a separator, and what follows the last separator is carried over to
what comes next (`feedLines`).  Cutting a stream in two and carrying over gives the lines of the
whole (`feedLines_append`), so a reader that keeps the unfinished line reads every line once,
however the stream grows between its reads.
-/

set_option autoImplicit false

namespace ClaudeCodeBridge.Program

variable {α : Type} [DecidableEq α] {sep : α} {a b carry line : List α}

/-- The lines that end in a stream, after what was carried over, and what is carried on. -/
def feedLines (sep : α) : List α → List α → List (List α) × List α
  | carry, [] => ([], carry)
  | carry, x :: rest =>
    if x = sep then (carry :: (feedLines sep [] rest).1, (feedLines sep [] rest).2)
    else feedLines sep (carry ++ [x]) rest

/-- The lines that end in a stream. -/
def linesOf (sep : α) (stream : List α) : List (List α) := (feedLines sep [] stream).1

/-- The line at the end of a stream that has not ended. -/
def openLine (sep : α) (stream : List α) : List α := (feedLines sep [] stream).2

theorem feedLines_append (sep : α) (carry a b : List α) :
    feedLines sep carry (a ++ b) =
      ((feedLines sep carry a).1 ++ (feedLines sep (feedLines sep carry a).2 b).1,
        (feedLines sep (feedLines sep carry a).2 b).2) := by
  induction a generalizing carry with
  | nil => rfl
  | cons x a ih =>
    rw [List.cons_append, feedLines, feedLines]
    by_cases hx : x = sep
    · rw [if_pos hx, if_pos hx, ih []]
      rfl
    · rw [if_neg hx, if_neg hx, ih]

theorem feedLines_open (h : sep ∉ a) : feedLines sep carry a = ([], carry ++ a) := by
  induction a generalizing carry with
  | nil => rw [feedLines, List.append_nil]
  | cons x a ih =>
    rw [List.mem_cons, not_or] at h
    rw [feedLines, if_neg fun hx => h.1 hx.symm, ih h.2, List.append_assoc, List.singleton_append]

theorem feedLines_carry (h : sep ∉ carry) (stream : List α) :
    feedLines sep carry stream = feedLines sep [] (carry ++ stream) := by
  rw [feedLines_append, feedLines_open h, List.nil_append, List.nil_append]

theorem notMem_feedLines (h : sep ∉ carry) (stream : List α) :
    sep ∉ (feedLines sep carry stream).2 := by
  induction stream generalizing carry with
  | nil => exact h
  | cons x stream ih =>
    rw [feedLines]
    by_cases hx : x = sep
    · rw [if_pos hx]
      exact ih List.not_mem_nil
    · rw [if_neg hx]
      apply ih
      rw [List.mem_append, List.mem_singleton, not_or]
      exact ⟨h, fun heq => hx heq.symm⟩

theorem notMem_openLine (sep : α) (stream : List α) : sep ∉ openLine sep stream :=
  notMem_feedLines List.not_mem_nil stream

theorem linesOf_append (sep : α) (a b : List α) :
    linesOf sep (a ++ b) = linesOf sep a ++ linesOf sep (openLine sep a ++ b) := by
  have hcarry := feedLines_carry (notMem_openLine sep a) b
  unfold linesOf openLine at *
  rw [feedLines_append, hcarry]

theorem openLine_append (sep : α) (a b : List α) :
    openLine sep (a ++ b) = openLine sep (openLine sep a ++ b) := by
  have hcarry := feedLines_carry (notMem_openLine sep a) b
  unfold openLine at *
  rw [feedLines_append, hcarry]

theorem feedLines_before (sep : α) (a carry stream : List α) :
    (feedLines sep carry stream).1 = [] ∧ (feedLines sep (a ++ carry) stream).1 = [] ∨
      ∃ line lines, (feedLines sep carry stream).1 = line :: lines ∧
        (feedLines sep (a ++ carry) stream).1 = (a ++ line) :: lines := by
  induction stream generalizing carry with
  | nil => exact Or.inl ⟨rfl, rfl⟩
  | cons x stream ih =>
    rw [feedLines, feedLines]
    by_cases hx : x = sep
    · rw [if_pos hx, if_pos hx]
      exact Or.inr ⟨carry, _, rfl, rfl⟩
    · rw [if_neg hx, if_neg hx, List.append_assoc]
      exact ih (carry ++ [x])

theorem linesOf_before (h : sep ∉ a) (stream : List α) :
    linesOf sep stream = [] ∧ linesOf sep (a ++ stream) = [] ∨
      ∃ line lines, linesOf sep stream = line :: lines ∧
        linesOf sep (a ++ stream) = (a ++ line) :: lines := by
  have hbefore := feedLines_before sep a [] stream
  rw [List.append_nil, feedLines_carry h] at hbefore
  exact hbefore

end ClaudeCodeBridge.Program
