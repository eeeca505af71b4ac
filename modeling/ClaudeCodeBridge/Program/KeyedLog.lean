import Mathlib.Data.List.Chain
import Mathlib.Data.List.Nodup

/-!
# Append-only logs of keyed records

A log is a list of records that is only ever appended to; a record supersedes the
earlier ones with its key.  `latest? key k log` is the record that stands for `k`,
`collapse key log` lists the standing records in the order in which their keys were
first appended.

The ladder: one append is one `upsert` (`collapse_append`), an upsert of a known key
changes one record in place (`upsert_of_mem`) and one of a new key appends it
(`upsert_of_notMem`), keys never repeat (`collapse_nodup`), and the two views agree
(`latest?_eq_find?_collapse`).
-/

set_option autoImplicit false

namespace ClaudeCodeBridge.Program

section KeyedLog

variable {κ ρ : Type} [DecidableEq κ] (key : ρ → κ)

/-- The last record of the log with the key `k`. -/
def latest? (k : κ) (log : List ρ) : Option ρ := log.reverse.find? fun r => key r = k

/-- Put `r` in the place of the record with its key, or at the end. -/
def upsert (r : ρ) : List ρ → List ρ
  | [] => [r]
  | x :: xs => if key x = key r then r :: xs else x :: upsert r xs

/-- The standing records, in the order in which their keys were first appended. -/
def collapse (log : List ρ) : List ρ := log.foldl (fun l r => upsert key r l) []

@[simp] theorem collapse_nil : collapse key ([] : List ρ) = [] := rfl

@[simp] theorem collapse_append (log : List ρ) (r : ρ) :
    collapse key (log ++ [r]) = upsert key r (collapse key log) := by
  simp [collapse, List.foldl_append]

@[simp] theorem latest?_nil (k : κ) : latest? key k [] = none := rfl

@[simp] theorem latest?_append (k : κ) (log : List ρ) (r : ρ) :
    latest? key k (log ++ [r]) = if key r = k then some r else latest? key k log := by
  simp only [latest?, List.reverse_append, List.reverse_singleton, List.singleton_append,
    List.find?_cons]
  by_cases h : key r = k <;> simp [h]

variable {r : ρ} {l : List ρ}

theorem upsert_of_notMem (h : key r ∉ l.map key) : upsert key r l = l ++ [r] := by
  induction l with
  | nil => rfl
  | cons x xs ih =>
    simp only [List.map_cons, List.mem_cons, not_or] at h
    rw [upsert, if_neg (Ne.symm h.1), ih h.2, List.cons_append]

variable {x : ρ}

theorem upsert_of_mem {pre post : List ρ} (hk : key x = key r)
    (h : key x ∉ pre.map key) : upsert key r (pre ++ x :: post) = pre ++ r :: post := by
  induction pre with
  | nil => rw [List.nil_append, upsert, if_pos hk, List.nil_append]
  | cons y ys ih =>
    simp only [List.map_cons, List.mem_cons, not_or] at h
    rw [List.cons_append, upsert, if_neg (fun e => h.1 (hk.trans e.symm)), ih h.2, List.cons_append]

variable {k : κ}

theorem mem_keys_upsert : k ∈ (upsert key r l).map key ↔ k = key r ∨ k ∈ l.map key := by
  induction l with
  | nil => simp [upsert]
  | cons x xs ih =>
    by_cases h : key x = key r
    · simp [upsert, h]
    · simp only [upsert, if_neg h, List.map_cons, List.mem_cons, ih]
      exact or_left_comm

theorem upsert_nodup (h : (l.map key).Nodup) : ((upsert key r l).map key).Nodup := by
  induction l with
  | nil => simp [upsert]
  | cons x xs ih =>
    simp only [List.map_cons, List.nodup_cons] at h
    by_cases hx : key x = key r
    · simp only [upsert, if_pos hx, List.map_cons, List.nodup_cons]
      exact ⟨hx ▸ h.1, h.2⟩
    · simp only [upsert, if_neg hx, List.map_cons, List.nodup_cons]
      refine ⟨?_, ih h.2⟩
      rw [mem_keys_upsert]
      exact fun hm => hm.elim (fun e => hx e) h.1

theorem mem_of_upsert (h : x ∈ upsert key r l) : x = r ∨ x ∈ l := by
  induction l with
  | nil => exact Or.inl (List.mem_singleton.mp h)
  | cons y ys ih =>
    unfold upsert at h
    split at h
    · exact (List.mem_cons.mp h).imp_right (List.mem_cons_of_mem y)
    · obtain rfl | h := List.mem_cons.mp h
      · exact Or.inr List.mem_cons_self
      · exact (ih h).imp_right (List.mem_cons_of_mem y)

/-- A record is listed after an upsert if it is the new one, or it was listed under
another key (or in place of it, when keys repeat). -/
theorem mem_upsert (h : (l.map key).Nodup) :
    x ∈ upsert key r l ↔ x = r ∨ x ∈ l ∧ key x ≠ key r := by
  induction l with
  | nil => simp [upsert]
  | cons y ys ih =>
    simp only [List.map_cons, List.nodup_cons] at h
    by_cases hy : key y = key r
    · have hne : ∀ z ∈ ys, key z ≠ key r := fun z hz e =>
        h.1 (hy ▸ e ▸ List.mem_map_of_mem hz)
      simp only [upsert, if_pos hy, List.mem_cons]
      constructor
      · rintro (hx | hx)
        · exact Or.inl hx
        · exact Or.inr ⟨Or.inr hx, hne x hx⟩
      · rintro (hx | ⟨hx | hx, hk⟩)
        · exact Or.inl hx
        · exact absurd (hx ▸ hy) hk
        · exact Or.inr hx
    · simp only [upsert, if_neg hy, List.mem_cons, ih h.2]
      constructor
      · rintro (hx | hx | hx)
        · exact Or.inr ⟨Or.inl hx, hx ▸ hy⟩
        · exact Or.inl hx
        · exact Or.inr ⟨Or.inr hx.1, hx.2⟩
      · rintro (hx | ⟨hx | hx, hk⟩)
        · exact Or.inr (Or.inl hx)
        · exact Or.inl hx
        · exact Or.inr (Or.inr ⟨hx, hk⟩)

theorem collapse_nodup (log : List ρ) : ((collapse key log).map key).Nodup := by
  induction log using List.reverseRecOn with
  | nil => simp
  | append_singleton log r ih =>
    rw [collapse_append]
    exact upsert_nodup key ih

theorem mem_keys_collapse {log : List ρ} : k ∈ (collapse key log).map key ↔ k ∈ log.map key := by
  induction log using List.reverseRecOn with
  | nil => simp
  | append_singleton log r ih =>
    rw [collapse_append, mem_keys_upsert, ih, List.map_append, List.mem_append, or_comm]
    simp

theorem latest?_eq_some_iff {log : List ρ} :
    latest? key k log = some r ↔ r ∈ collapse key log ∧ key r = k := by
  induction log using List.reverseRecOn with
  | nil => simp
  | append_singleton log x ih =>
    rw [latest?_append, collapse_append, mem_upsert key (collapse_nodup key log)]
    by_cases h : key x = k
    · rw [if_pos h, Option.some.injEq]
      constructor
      · rintro rfl
        exact ⟨Or.inl rfl, h⟩
      · rintro ⟨hr | ⟨_, hne⟩, hk⟩
        · exact hr.symm
        · exact absurd (hk.trans h.symm) hne
    · rw [if_neg h, ih]
      constructor
      · rintro ⟨hr, hk⟩
        exact ⟨Or.inr ⟨hr, fun e => h (e.symm.trans hk)⟩, hk⟩
      · rintro ⟨hr | ⟨hr, _⟩, hk⟩
        · exact absurd (hr ▸ hk) h
        · exact ⟨hr, hk⟩

theorem latest?_eq_find?_collapse (k : κ) (log : List ρ) :
    latest? key k log = (collapse key log).find? fun r => key r = k := by
  cases hfind : (collapse key log).find? fun r => key r = k with
  | none =>
    rw [List.find?_eq_none] at hfind
    apply Option.eq_none_iff_forall_ne_some.mpr
    intro r hr
    obtain ⟨hmem, hkey⟩ := (latest?_eq_some_iff key).mp hr
    exact hfind r hmem (decide_eq_true hkey)
  | some r =>
    have hkey := List.find?_some hfind
    exact (latest?_eq_some_iff key).mpr
      ⟨List.mem_of_find?_eq_some hfind, of_decide_eq_true hkey⟩

theorem latest?_eq_none_iff {log : List ρ} : latest? key k log = none ↔ k ∉ log.map key := by
  simp [latest?, List.find?_eq_none]

theorem collapse_key_inj {log : List ρ} (hr : r ∈ collapse key log)
    (hx : x ∈ collapse key log) (h : key r = key x) : r = x := by
  have h₁ := (latest?_eq_some_iff key).2 ⟨hr, rfl⟩
  have h₂ := (latest?_eq_some_iff key).2 ⟨hx, h.symm⟩
  exact Option.some.inj (h₁.symm.trans h₂)

theorem collapse_append_fresh {log : List ρ} (h : key r ∉ log.map key) :
    collapse key (log ++ [r]) = collapse key log ++ [r] := by
  rw [collapse_append, upsert_of_notMem]
  rwa [mem_keys_collapse]

theorem collapse_of_nodup {log : List ρ} (h : (log.map key).Nodup) : collapse key log = log := by
  induction log using List.reverseRecOn with
  | nil => rfl
  | append_singleton log r ih =>
    rw [List.map_append, List.map_singleton, List.nodup_append] at h
    obtain ⟨hlog, _, hdisjoint⟩ := h
    rw [collapse_append_fresh, ih hlog]
    intro hmem
    exact hdisjoint _ hmem _ (List.mem_singleton_self _) rfl

theorem latest?_of_mem {log : List ρ} (h : (log.map key).Nodup) (hr : r ∈ log) :
    latest? key (key r) log = some r := by
  rw [latest?_eq_some_iff, collapse_of_nodup key h]
  exact ⟨hr, rfl⟩

omit key in
theorem mem_of_latest? {key : ρ → κ} {log : List ρ}
    (h : latest? key k log = some r) : r ∈ log ∧ key r = k := by
  unfold latest? at h
  have hmem := List.mem_of_find?_eq_some h
  have hkey := List.find?_some h
  exact ⟨List.mem_reverse.mp hmem, of_decide_eq_true hkey⟩

omit key in
theorem mem_of_mem_collapse {key : ρ → κ} {log : List ρ} (h : r ∈ collapse key log) : r ∈ log :=
  (mem_of_latest? ((latest?_eq_some_iff key).mpr ⟨h, rfl⟩)).1

theorem latest?_filter {p : ρ → Bool} {log : List ρ}
    (h : ∀ r ∈ log, key r = k → p r) : latest? key k (log.filter p) = latest? key k log := by
  induction log using List.reverseRecOn with
  | nil => rfl
  | append_singleton log r ih =>
    have hlog := ih fun x hx => h x (List.mem_append_left _ hx)
    rw [List.filter_append, latest?_append]
    by_cases hp : p r
    · rw [List.filter_cons_of_pos hp, List.filter_nil, latest?_append, hlog]
    · have hr : key r ≠ k := fun hr => hp (h r (List.mem_append_right _ List.mem_cons_self) hr)
      rw [List.filter_cons_of_neg hp, List.filter_nil, List.append_nil, if_neg hr, hlog]

theorem latest?_eq_getLast? (k : κ) (log : List ρ) :
    latest? key k log = (log.filter fun r => key r = k).getLast? := by
  rw [latest?, List.getLast?_eq_head?_reverse, ← List.filter_reverse, List.head?_filter]

/-- The records of a key, in the order they were appended. -/
def recordsOf (k : κ) (log : List ρ) : List ρ :=
  log.filter fun r => key r = k

/-- **What the appended record keeps of the standing one, each record of a key keeps of the
one before.** -/
theorem recordsOf_isChain_append {R : ρ → ρ → Prop} {log : List ρ}
    (h : ∀ k, (recordsOf key k log).IsChain R)
    (hr : ∀ x, latest? key (key r) log = some x → R x r) (k : κ) :
    (recordsOf key k (log ++ [r])).IsChain R := by
  unfold recordsOf
  rw [List.filter_append]
  by_cases hk : key r = k
  · subst hk
    rw [List.filter_cons_of_pos (by simp), List.filter_nil, List.isChain_append]
    refine ⟨h (key r), .singleton r, fun x hx y hy => ?_⟩
    rw [← Option.some.inj hy]
    exact hr x (by rw [latest?_eq_getLast?]; exact hx)
  · rw [List.filter_cons_of_neg (by simpa using hk), List.filter_nil, List.append_nil]
    exact h k

theorem latest?_append_list (k : κ) (log added : List ρ) :
    latest? key k (log ++ added) = (latest? key k added).or (latest? key k log) := by
  unfold latest?
  rw [List.reverse_append, List.find?_append]

theorem mem_collapse_append_list {added : List ρ} (hr : r ∈ collapse key added)
    (log : List ρ) : r ∈ collapse key (log ++ added) := by
  have hadded := (latest?_eq_some_iff key).2 ⟨hr, rfl⟩
  have hlatest := latest?_append_list key (key r) log added
  rw [hadded, Option.some_or] at hlatest
  exact ((latest?_eq_some_iff key).1 hlatest).1

theorem latest?_collapse (k : κ) (log : List ρ) :
    latest? key k (collapse key log) = latest? key k log := by
  apply Option.ext
  intro r
  rw [latest?_eq_some_iff, latest?_eq_some_iff, collapse_of_nodup key (collapse_nodup key log)]

theorem collapse_append_known {log : List ρ} (hx : latest? key (key r) log = some x) :
    ∃ pre post, collapse key log = pre ++ x :: post ∧
      collapse key (log ++ [r]) = pre ++ r :: post := by
  obtain ⟨hmem, hk⟩ := (latest?_eq_some_iff key).1 hx
  obtain ⟨pre, post, hsplit⟩ := List.append_of_mem hmem
  refine ⟨pre, post, hsplit, ?_⟩
  have hnd := collapse_nodup key log
  rw [hsplit, List.map_append, List.map_cons, List.nodup_middle, List.nodup_cons] at hnd
  rw [collapse_append, hsplit, upsert_of_mem key hk]
  exact fun hpre => hnd.1 (List.mem_append_left _ hpre)

/-- The standing records are listed in the order in which their keys were first appended. -/
theorem collapse_keys_sorted (log : List ρ) :
    ((collapse key log).map key).Pairwise
      fun k l => (log.map key).idxOf k < (log.map key).idxOf l := by
  induction log using List.reverseRecOn with
  | nil => simp
  | append_singleton log r ih =>
    have hold : ((collapse key log).map key).Pairwise
        fun k l => ((log ++ [r]).map key).idxOf k < ((log ++ [r]).map key).idxOf l := by
      refine List.Pairwise.imp_of_mem ?_ ih
      intro k l hk hl hlt
      rw [mem_keys_collapse] at hk hl
      rw [List.map_append, List.idxOf_append_of_mem hk, List.idxOf_append_of_mem hl]
      exact hlt
    by_cases hr : key r ∈ log.map key
    · obtain ⟨x, hx⟩ := Option.ne_none_iff_exists'.mp
        (fun hnone => (latest?_eq_none_iff key).mp hnone hr)
      obtain ⟨pre, post, hbefore, hafter⟩ := collapse_append_known key hx
      have hkey := ((latest?_eq_some_iff key).mp hx).2
      rw [hbefore] at hold
      rw [hafter]
      simpa [hkey] using hold
    · rw [collapse_append_fresh key hr, @List.map_append _ _ key (collapse key log),
        List.pairwise_append]
      refine ⟨hold, List.pairwise_singleton _ _, ?_⟩
      intro k hk l hl
      rw [mem_keys_collapse] at hk
      rw [List.map_singleton, List.mem_singleton] at hl
      rw [hl, List.map_append, List.idxOf_append_of_mem hk, List.idxOf_append_of_notMem hr]
      have hlt := List.idxOf_lt_length_of_mem hk
      omega

end KeyedLog

end ClaudeCodeBridge.Program
