import Mathlib.Data.List.Basic

/-!
# Lines between breaks

A text is cut into lines at its breaks: a line feed, a carriage return, or one after the other
(`splitLines`).  What its lines have, apart from the empty ones, are the runs between the breaks
(`runs`), and those can be taken from the two sides of any break (`runs_append`).
-/

set_option autoImplicit false

namespace ClaudeCodeBridge.Program

variable {α : Type} [DecidableEq α] {lf cr x : α} {a b carry line : List α}

def isBreak (lf cr x : α) : Bool := x = lf || x = cr

/-- The lines of a text, after what was carried over; `after` says that a carriage return has just
been read.  A line feed there ends no line, and after the last break there is none. -/
def splitLinesFrom (lf cr : α) : Bool → List α → List α → List (List α)
  | _, carry, [] => if carry = [] then [] else [carry]
  | after, carry, x :: rest =>
    if isBreak lf cr x then
      if after ∧ x = lf then splitLinesFrom lf cr false carry rest
      else carry :: splitLinesFrom lf cr (x = cr) [] rest
    else splitLinesFrom lf cr false (carry ++ [x]) rest

def splitLines (lf cr : α) (text : List α) : List (List α) := splitLinesFrom lf cr false [] text

/-- A line, if it is not empty. -/
def someLine (line : List α) : List (List α) := if line = [] then [] else [line]

/-- The runs between breaks, after what was carried over. -/
def runsFrom (lf cr : α) : List α → List α → List (List α)
  | carry, [] => someLine carry
  | carry, x :: rest =>
    if isBreak lf cr x then someLine carry ++ runsFrom lf cr [] rest
    else runsFrom lf cr (carry ++ [x]) rest

def runs (lf cr : α) (text : List α) : List (List α) := runsFrom lf cr [] text

omit [DecidableEq α] in
theorem someLine_nil : someLine ([] : List α) = [] := rfl

omit [DecidableEq α] in
theorem filter_cons_line (line : List α) (lines : List (List α)) :
    (line :: lines).filter (fun line => line ≠ []) =
      someLine line ++ lines.filter fun line => line ≠ [] := by
  unfold someLine
  rw [List.filter_cons]
  split <;> simp_all

theorem splitLinesFrom_filter (after : Bool) (carry text : List α) (h : after = true → carry = []) :
    (splitLinesFrom lf cr after carry text).filter (fun line => line ≠ []) =
      runsFrom lf cr carry text := by
  induction text generalizing after carry with
  | nil =>
    unfold splitLinesFrom runsFrom someLine
    split <;> simp_all
  | cons x text ih =>
    rw [splitLinesFrom, runsFrom]
    by_cases hx : isBreak lf cr x = true
    · rw [if_pos hx, if_pos hx]
      by_cases hafter : after = true ∧ x = lf
      · rw [if_pos hafter, ih false carry (by simp), h hafter.1, someLine_nil, List.nil_append]
      · rw [if_neg hafter, filter_cons_line, ih _ [] fun _ => rfl]
    · rw [if_neg hx, if_neg hx, ih false _ (by simp)]

theorem splitLines_filter (lf cr : α) (text : List α) :
    (splitLines lf cr text).filter (fun line => line ≠ []) = runs lf cr text :=
  splitLinesFrom_filter false [] text (by simp)

/-- No break stands in a text. -/
def Unbroken (lf cr : α) (text : List α) : Prop := ∀ x ∈ text, isBreak lf cr x = false

theorem unbroken_nil (lf cr : α) : Unbroken lf cr [] := fun _ hx => absurd hx List.not_mem_nil

theorem runsFrom_unbroken (h : Unbroken lf cr a) (carry rest : List α) :
    runsFrom lf cr carry (a ++ rest) = runsFrom lf cr (carry ++ a) rest := by
  induction a generalizing carry with
  | nil => rw [List.nil_append, List.append_nil]
  | cons x a ih =>
    have hx := h x List.mem_cons_self
    rw [List.cons_append, runsFrom, hx, if_neg Bool.false_ne_true,
      ih (fun y hy => h y (List.mem_cons_of_mem x hy)), List.append_assoc, List.singleton_append]

theorem runsFrom_append_break (hx : isBreak lf cr x = true) (carry a b : List α) :
    runsFrom lf cr carry (a ++ x :: b) = runsFrom lf cr carry a ++ runs lf cr (x :: b) := by
  induction a generalizing carry with
  | nil =>
    have hrest : runs lf cr (x :: b) = runsFrom lf cr [] b := by
      unfold runs
      rw [runsFrom, if_pos hx, someLine_nil, List.nil_append]
    rw [hrest, List.nil_append, runsFrom, runsFrom, if_pos hx]
  | cons y a ih =>
    rw [List.cons_append, runsFrom, runsFrom]
    split
    · rw [ih, List.append_assoc]
    · rw [ih]

theorem runs_append (hb : ∀ x ∈ b.head?, isBreak lf cr x = true) (a : List α) :
    runs lf cr (a ++ b) = runs lf cr a ++ runs lf cr b := by
  cases b with
  | nil =>
    rw [List.append_nil]
    exact (List.append_nil _).symm
  | cons x b => exact runsFrom_append_break (hb x rfl) [] a b

theorem runs_unbroken (h : Unbroken lf cr a) : runs lf cr a = someLine a := by
  have hruns := runsFrom_unbroken h [] []
  rw [List.append_nil, List.nil_append] at hruns
  exact hruns

theorem runs_cons_break (hx : isBreak lf cr x = true) (b : List α) :
    runs lf cr (x :: b) = runs lf cr b := by
  unfold runs
  rw [runsFrom, if_pos hx, someLine_nil, List.nil_append]

theorem runs_append_break (hx : isBreak lf cr x = true) (a b : List α) :
    runs lf cr (a ++ x :: b) = runs lf cr a ++ runs lf cr b := by
  have hhead : ∀ y ∈ (x :: b).head?, isBreak lf cr y = true := by
    intro y hy
    rw [List.head?_cons, Option.mem_def, Option.some_inj] at hy
    rw [← hy]
    exact hx
  rw [runs_append hhead, runs_cons_break hx]

theorem unbroken_or_break (lf cr : α) (text : List α) :
    Unbroken lf cr text ∨
      ∃ a x b, text = a ++ x :: b ∧ Unbroken lf cr a ∧ isBreak lf cr x = true := by
  induction text with
  | nil => exact Or.inl (unbroken_nil lf cr)
  | cons y text ih =>
    by_cases hy : isBreak lf cr y = true
    · exact Or.inr ⟨[], y, text, rfl, unbroken_nil lf cr, hy⟩
    · have hcons : ∀ {a : List α}, Unbroken lf cr a → Unbroken lf cr (y :: a) := by
        intro a ha z hz
        obtain rfl | hmem := List.mem_cons.mp hz
        · exact Bool.eq_false_iff.mpr hy
        · exact ha z hmem
      obtain h | ⟨a, x, b, rfl, ha, hx⟩ := ih
      · exact Or.inl (hcons h)
      · exact Or.inr ⟨y :: a, x, b, rfl, hcons ha, hx⟩

/-- The first line of a text that does not begin with a break, and the others. -/
theorem splitLines_first (h : Unbroken lf cr a) (ha : a ≠ [])
    (hb : ∀ x ∈ b.head?, isBreak lf cr x = true) :
    ∃ rest, splitLines lf cr (a ++ b) = a :: rest ∧
      rest.filter (fun line => line ≠ []) = runs lf cr b := by
  have hread : ∀ carry : List α, splitLinesFrom lf cr false carry (a ++ b) =
      splitLinesFrom lf cr false (carry ++ a) b := by
    clear ha
    induction a with
    | nil =>
      intro carry
      rw [List.nil_append, List.append_nil]
    | cons x a ih =>
      intro carry
      have hx := h x List.mem_cons_self
      rw [List.cons_append, splitLinesFrom, hx, if_neg Bool.false_ne_true,
        ih (fun y hy => h y (List.mem_cons_of_mem x hy)), List.append_assoc, List.singleton_append]
  unfold splitLines
  rw [hread, List.nil_append]
  cases b with
  | nil =>
    refine ⟨[], ?_, rfl⟩
    rw [splitLinesFrom, if_neg ha]
  | cons x b =>
    have hx := hb x rfl
    refine ⟨splitLinesFrom lf cr (x = cr) [] b, ?_, ?_⟩
    · rw [splitLinesFrom, if_pos hx, if_neg (by simp)]
    · rw [splitLinesFrom_filter _ _ _ fun _ => rfl, runs_cons_break hx]
      rfl

end ClaudeCodeBridge.Program
