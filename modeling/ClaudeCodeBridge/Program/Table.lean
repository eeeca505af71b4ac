import Mathlib.Algebra.BigOperators.Group.List.Basic
import Mathlib.Data.List.Nodup

/-!
# Tables

The rows of a database table, in the order of their insertion.  `select` finds the row
with a key, `insert` adds a row unless its key is taken, and `update` replaces the rows
that a condition chooses.

The ladder: an update that leaves the keys alone keeps them unique
(`nodup_update`), and how many rows have a property after an update is known from how
the update treats a row (`countP_update_of_keeps`, `countP_update_single`).
-/

set_option autoImplicit false

namespace ClaudeCodeBridge.Program

namespace Table

variable {α κ : Type}

/-- `SELECT … WHERE key = k`, for a primary key. -/
def select [DecidableEq κ] (key : α → κ) (k : κ) (rows : List α) : Option α :=
  rows.find? fun row => key row = k

/-- `INSERT`, `none` where the primary key is taken. -/
def insert [DecidableEq κ] (key : α → κ) (row : α) (rows : List α) : Option (List α) :=
  if key row ∈ rows.map key then none else some (rows ++ [row])

/-- `UPDATE … SET f WHERE p`. -/
def update (p : α → Bool) (f : α → α) (rows : List α) : List α :=
  rows.map fun row => if p row then f row else row

section Keys

variable [DecidableEq κ] {key : α → κ} {k : κ} {row other : α} {rows rows' : List α}

theorem mem_of_select (h : select key k rows = some row) : row ∈ rows ∧ key row = k := by
  refine ⟨List.mem_of_find?_eq_some h, ?_⟩
  have hkey := List.find?_some h
  simpa using hkey

theorem select_none (h : select key k rows = none) : ∀ row ∈ rows, key row ≠ k := by
  intro row hrow
  have hkey := List.find?_eq_none.mp h row hrow
  simpa using hkey

omit [DecidableEq κ] in
theorem eq_of_key (hnodup : (rows.map key).Nodup) (hrow : row ∈ rows) (hother : other ∈ rows)
    (h : key row = key other) : row = other :=
  List.inj_on_of_nodup_map hnodup hrow hother h

theorem select_of_mem (hnodup : (rows.map key).Nodup) (hrow : row ∈ rows) :
    select key (key row) rows = some row := by
  cases hfound : select key (key row) rows with
  | none => exact absurd rfl (select_none hfound row hrow)
  | some found =>
    obtain ⟨hmem, hkey⟩ := mem_of_select hfound
    rw [eq_of_key hnodup hmem hrow hkey]

theorem insert_some (h : insert key row rows = some rows') :
    key row ∉ rows.map key ∧ rows' = rows ++ [row] := by
  unfold insert at h
  split at h
  · simp at h
  · rename_i hfresh
    exact ⟨hfresh, (Option.some.inj h).symm⟩

omit [DecidableEq κ] in
theorem nodup_append (hnodup : (rows.map key).Nodup) (hfresh : key row ∉ rows.map key) :
    ((rows ++ [row]).map key).Nodup := by
  rw [List.map_append, List.map_singleton, List.nodup_append]
  refine ⟨hnodup, List.nodup_singleton _, ?_⟩
  intro a ha b hb hab
  rw [List.mem_singleton.mp hb] at hab
  exact hfresh (hab ▸ ha)

end Keys

section Updates

variable {p q : α → Bool} {f : α → α} {rows : List α}

@[simp] theorem mem_update {row : α} :
    row ∈ update p f rows ↔ ∃ old ∈ rows, (if p old then f old else old) = row := by
  unfold update
  rw [List.mem_map]

theorem map_update {key : α → κ} (hkey : ∀ row, key (f row) = key row) :
    (update p f rows).map key = rows.map key := by
  unfold update
  rw [List.map_map]
  refine List.map_congr_left fun row _ => ?_
  rw [Function.comp_apply]
  split
  · exact hkey row
  · rfl

theorem nodup_update {key : α → κ} (hkey : ∀ row, key (f row) = key row)
    (hnodup : (rows.map key).Nodup) : ((update p f rows).map key).Nodup := by
  rw [map_update hkey]
  exact hnodup

theorem forall_update {P : α → Prop} (h : ∀ row ∈ rows, P row)
    (hchange : ∀ row ∈ rows, p row = true → P (f row)) :
    ∀ row ∈ update p f rows, P row := by
  intro row hrow
  obtain ⟨old, hold, rfl⟩ := mem_update.mp hrow
  split
  · rename_i hp
    exact hchange old hold hp
  · exact h old hold

theorem forall_append {P : α → Prop} {row : α} (h : ∀ x ∈ rows, P x) (hrow : P row) :
    ∀ x ∈ rows ++ [row], P x := by
  intro x hx
  rcases List.mem_append.mp hx with hx | hx
  · exact h x hx
  · rw [List.mem_singleton.mp hx]
    exact hrow

theorem countP_update_of_keeps (h : ∀ row ∈ rows, p row = true → q (f row) = q row) :
    (update p f rows).countP q = rows.countP q := by
  unfold update
  rw [List.countP_map]
  refine List.countP_congr fun row hrow => ?_
  rw [Function.comp_apply]
  split
  · rename_i hp
    rw [h row hrow hp]
  · rfl

theorem countP_update_eq_zero (h : ∀ row ∈ rows, q row = true → p row = true)
    (hclears : ∀ row ∈ rows, p row = true → q (f row) = false) :
    (update p f rows).countP q = 0 := by
  rw [List.countP_eq_zero]
  intro row hrow
  obtain ⟨old, hold, rfl⟩ := mem_update.mp hrow
  split
  · rename_i hp
    rw [hclears old hold hp]
    simp
  · rename_i hp
    intro hq
    exact hp (h old hold hq)

/-- An update of the one row with a key, which stops counting. -/
theorem countP_update_single {key : α → κ} {row : α} (hnodup : (rows.map key).Nodup)
    (hrow : row ∈ rows) (hchosen : ∀ x ∈ rows, p x = true ↔ key x = key row)
    (hcounted : q row = true) (hcleared : q (f row) = false) :
    (update p f rows).countP q + 1 = rows.countP q := by
  induction rows with
  | nil => simp at hrow
  | cons first rest ih =>
    rw [List.map_cons, List.nodup_cons] at hnodup
    have hchosen' : ∀ x ∈ rest, p x = true ↔ key x = key row := fun x hx =>
      hchosen x (List.mem_cons_of_mem _ hx)
    have hcons : update p f (first :: rest) =
        (if p first then f first else first) :: update p f rest := rfl
    rw [hcons, List.countP_cons, List.countP_cons]
    by_cases hfirst : first = row
    · subst hfirst
      have hrest : (update p f rest).countP q = rest.countP q := by
        refine countP_update_of_keeps fun x hx hp => ?_
        have hkey := (hchosen' x hx).mp hp
        exact absurd (List.mem_map.mpr ⟨x, hx, hkey⟩) hnodup.1
      have hp : p first = true := (hchosen first List.mem_cons_self).mpr rfl
      rw [hrest, hp, if_pos rfl, hcleared, hcounted]
      simp
    · have hmem : row ∈ rest := by
        rcases List.mem_cons.mp hrow with h | h
        · exact absurd h.symm hfirst
        · exact h
      have hp : ¬ p first = true := by
        intro hp
        have hkey := (hchosen first List.mem_cons_self).mp hp
        exact hnodup.1 (List.mem_map.mpr ⟨row, hmem, hkey.symm⟩)
      have htail := ih hnodup.2 hmem hchosen'
      rw [if_neg hp]
      omega

end Updates

end Table

end ClaudeCodeBridge.Program
