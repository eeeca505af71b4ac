import Mathlib.Data.List.Sort

/-!
# Bounded lists of ranked elements

Lists whose elements have a rank, such as a sequence number, and of which only the last
ones are kept.  What is kept of an ascending list is everything from some rank on
(`Ascending.later`), the greatest rank included (`Ascending.newest`).
-/

set_option autoImplicit false

namespace ClaudeCodeBridge.Program

variable {α : Type} {n : ℕ} {xs ys : List α} {a b : α}

/-- `xs[-n:]`, for a positive `n`. -/
def lastOnes (n : ℕ) (xs : List α) : List α := xs.drop (xs.length - n)

theorem lastOnes_suffix (n : ℕ) (xs : List α) : lastOnes n xs <:+ xs := List.drop_suffix _ _

theorem mem_of_lastOnes (h : a ∈ lastOnes n xs) : a ∈ xs := (lastOnes_suffix n xs).subset h

theorem lastOnes_ne_nil (hn : 0 < n) (h : xs ≠ []) : lastOnes n xs ≠ [] := by
  have hlength := List.length_pos_iff.mpr h
  intro hnil
  have hzero := congrArg List.length hnil
  unfold lastOnes at hzero
  rw [List.length_drop, List.length_nil] at hzero
  omega

section Ranked

variable (rank : α → ℕ)

def Ascending (xs : List α) : Prop := xs.Pairwise fun a b => rank a < rank b

variable {rank}

theorem Ascending.append (hxs : Ascending rank xs) (hys : Ascending rank ys) {bound : ℕ}
    (hlt : ∀ x ∈ xs, rank x < bound) (hge : ∀ y ∈ ys, bound ≤ rank y) :
    Ascending rank (xs ++ ys) := by
  apply List.pairwise_append.mpr
  refine ⟨hxs, hys, ?_⟩
  intro x hx y hy
  exact Nat.lt_of_lt_of_le (hlt x hx) (hge y hy)

theorem Ascending.eq_of_rank (h : Ascending rank xs) (ha : a ∈ xs) (hb : b ∈ xs)
    (hrank : rank a = rank b) : a = b := by
  have hnodup : (xs.map rank).Nodup := by
    apply List.Pairwise.imp Nat.ne_of_lt
    exact List.pairwise_map.mpr h
  exact List.inj_on_of_nodup_map hnodup ha hb hrank

theorem Ascending.lastOnes (h : Ascending rank xs) (n : ℕ) : Ascending rank (lastOnes n xs) :=
  h.sublist (lastOnes_suffix n xs).sublist

theorem Ascending.later (h : Ascending rank xs) (ha : a ∈ Program.lastOnes n xs) (hb : b ∈ xs)
    (hab : rank a ≤ rank b) : b ∈ Program.lastOnes n xs := by
  obtain ⟨first, hsplit⟩ := lastOnes_suffix n xs
  rw [← hsplit] at h hb
  rcases List.mem_append.mp hb with hfirst | hlast
  · have hlt := (List.pairwise_append.mp h).2.2 b hfirst a ha
    omega
  · exact hlast

theorem Ascending.newest (h : Ascending rank xs) (hn : 0 < n) (ha : a ∈ xs) :
    ∃ b ∈ Program.lastOnes n xs, rank a ≤ rank b := by
  have hne := lastOnes_ne_nil hn (List.ne_nil_of_mem ha)
  obtain ⟨b, rest, hb⟩ := List.exists_cons_of_ne_nil hne
  have hmem : b ∈ Program.lastOnes n xs := by
    rw [hb]
    exact List.mem_cons_self
  rcases Nat.le_total (rank a) (rank b) with hle | hle
  · exact ⟨b, hmem, hle⟩
  · exact ⟨a, h.later hmem ha hle, Nat.le_refl _⟩

variable (rank)

/-- `sorted(xs, key=rank)`. -/
def sortedBy (xs : List α) : List α := xs.insertionSort fun a b => rank a ≤ rank b

variable {rank}

@[simp] theorem mem_sortedBy : a ∈ sortedBy rank xs ↔ a ∈ xs := List.mem_insertionSort _

theorem ascending_sortedBy (h : (xs.map rank).Nodup) : Ascending rank (sortedBy rank xs) := by
  have : Std.Total fun a b : α => rank a ≤ rank b := ⟨fun a b => Nat.le_total _ _⟩
  have : IsTrans α fun a b : α => rank a ≤ rank b := ⟨fun a b c => Nat.le_trans⟩
  have hsorted := List.pairwise_insertionSort (fun a b : α => rank a ≤ rank b) xs
  have hperm := List.perm_insertionSort (fun a b : α => rank a ≤ rank b) xs
  have hnodup : (sortedBy rank xs).Pairwise fun a b => rank a ≠ rank b :=
    List.pairwise_map.mp ((hperm.map rank).nodup_iff.mpr h)
  exact hsorted.imp₂ (fun a b hle hne => Nat.lt_of_le_of_ne hle hne) hnodup

variable (rank)

/-- `max([0, *(rank(x) for x in xs)])`. -/
def maxRank (xs : List α) : ℕ := xs.foldr (fun x greatest => max (rank x) greatest) 0

variable {rank}

theorem le_maxRank (h : a ∈ xs) : rank a ≤ maxRank rank xs := by
  induction xs with
  | nil => exact absurd h List.not_mem_nil
  | cons x rest ih =>
    unfold maxRank
    rw [List.foldr_cons]
    rcases List.mem_cons.mp h with rfl | hrest
    · exact Nat.le_max_left _ _
    · exact Nat.le_trans (ih hrest) (Nat.le_max_right _ _)

theorem maxRank_mem (h : xs ≠ []) : ∃ a ∈ xs, rank a = maxRank rank xs := by
  induction xs with
  | nil => exact absurd rfl h
  | cons x rest ih =>
    unfold maxRank
    rw [List.foldr_cons]
    by_cases hrest : rest = []
    · rw [hrest, List.foldr_nil, Nat.max_zero]
      exact ⟨x, List.mem_cons_self, rfl⟩
    · obtain ⟨a, ha, hrank⟩ := ih hrest
      rcases Nat.le_total (rank x) (maxRank rank rest) with hle | hle
      · refine ⟨a, List.mem_cons_of_mem _ ha, ?_⟩
        rw [hrank]
        exact (Nat.max_eq_right hle).symm
      · exact ⟨x, List.mem_cons_self, (Nat.max_eq_left hle).symm⟩

end Ranked

end ClaudeCodeBridge.Program
