import Mathlib.Data.List.Nodup

/-!
# Insertion-ordered dictionaries

A dictionary is a list of key-value pairs without a repeated key, in the order in which
the keys were first set.  Setting a key that is present keeps its place.
-/

set_option autoImplicit false

namespace ClaudeCodeBridge.Program

structure Dict (κ ν : Type) where
  items : List (κ × ν)
  nodup_keys : (items.map Prod.fst).Nodup

namespace Dict

variable {κ ν : Type}

@[ext] theorem ext {d e : Dict κ ν} (h : d.items = e.items) : d = e := by
  cases d
  cases e
  simpa using h

instance [DecidableEq κ] [DecidableEq ν] : DecidableEq (Dict κ ν) := fun d e =>
  decidable_of_iff (d.items = e.items) ⟨ext, fun h => h ▸ rfl⟩

/-- `{}`. -/
def empty : Dict κ ν := ⟨[], List.nodup_nil⟩

variable [DecidableEq κ]

/-- `d.get(key)`. -/
def get (d : Dict κ ν) (key : κ) : Option ν :=
  (d.items.find? fun item => item.1 = key).map Prod.snd

/-- `d[key] = value`, on the list of items. -/
def setItem (items : List (κ × ν)) (key : κ) (value : ν) : List (κ × ν) :=
  match items with
  | [] => [(key, value)]
  | item :: rest =>
    if item.1 = key then (key, value) :: rest else item :: setItem rest key value

theorem mem_keys_setItem {items : List (κ × ν)} {key k : κ} {value : ν}
    (h : k ∈ (setItem items key value).map Prod.fst) :
    k = key ∨ k ∈ items.map Prod.fst := by
  induction items with
  | nil => simpa [setItem] using h
  | cons item rest ih =>
    unfold setItem at h
    split at h
    · rename_i hkey
      simp only [List.map_cons, List.mem_cons] at h ⊢
      rcases h with h | h
      · exact .inl h
      · exact .inr (.inr h)
    · simp only [List.map_cons, List.mem_cons] at h ⊢
      rcases h with h | h
      · exact .inr (.inl h)
      · rcases ih h with h | h
        · exact .inl h
        · exact .inr (.inr h)

theorem nodup_setItem {items : List (κ × ν)} (h : (items.map Prod.fst).Nodup) (key : κ)
    (value : ν) : ((setItem items key value).map Prod.fst).Nodup := by
  induction items with
  | nil => simp [setItem]
  | cons item rest ih =>
    rw [List.map_cons, List.nodup_cons] at h
    unfold setItem
    split
    · rename_i hkey
      rw [List.map_cons, List.nodup_cons, ← hkey]
      exact h
    · rename_i hkey
      rw [List.map_cons, List.nodup_cons]
      constructor
      · intro hmem
        rcases mem_keys_setItem hmem with heq | hmem
        · exact hkey heq
        · exact h.1 hmem
      · exact ih h.2

/-- `d[key] = value`. -/
def set (d : Dict κ ν) (key : κ) (value : ν) : Dict κ ν :=
  ⟨setItem d.items key value, nodup_setItem d.nodup_keys key value⟩

/-- `d.pop(key, None)`. -/
def pop (d : Dict κ ν) (key : κ) : Dict κ ν :=
  ⟨d.items.filter fun item => item.1 ≠ key, d.nodup_keys.sublist (List.filter_sublist.map _)⟩

@[simp] theorem get_empty (key : κ) : (empty : Dict κ ν).get key = none := rfl

theorem mem_of_get {d : Dict κ ν} {key : κ} {value : ν} (h : d.get key = some value) :
    (key, value) ∈ d.items := by
  unfold get at h
  obtain ⟨item, hitem, hvalue⟩ := Option.map_eq_some_iff.mp h
  have hkey := List.find?_some hitem
  have hmem := List.mem_of_find?_eq_some hitem
  rw [decide_eq_true_iff] at hkey
  rwa [← hkey, ← hvalue]

theorem find_of_mem {items : List (κ × ν)} (hnodup : (items.map Prod.fst).Nodup) {key : κ}
    {value : ν} (h : (key, value) ∈ items) :
    (items.find? fun item => item.1 = key) = some (key, value) := by
  induction items with
  | nil => exact absurd h List.not_mem_nil
  | cons item rest ih =>
    rw [List.map_cons, List.nodup_cons] at hnodup
    rcases List.mem_cons.mp h with heq | hrest
    · rw [← heq, List.find?_cons_of_pos (by simp)]
    · have hne : item.1 ≠ key := by
        rintro rfl
        exact hnodup.1 (List.mem_map.mpr ⟨_, hrest, rfl⟩)
      rw [List.find?_cons_of_neg (by simpa using hne)]
      exact ih hnodup.2 hrest

theorem get_of_mem {d : Dict κ ν} {key : κ} {value : ν} (h : (key, value) ∈ d.items) :
    d.get key = some value := by
  rw [get, find_of_mem d.nodup_keys h]
  rfl

theorem get_eq_none_iff {d : Dict κ ν} {key : κ} :
    d.get key = none ↔ ∀ item ∈ d.items, item.1 ≠ key := by
  simp [get, Option.map_eq_none_iff, List.find?_eq_none]

/-- What has the same values for its keys is the same, whatever the order. -/
theorem get_congr {d e : Dict κ ν} (hkeys : d.items.map Prod.fst ⊆ e.items.map Prod.fst)
    (h : ∀ item ∈ e.items, d.get item.1 = some item.2) (key : κ) : d.get key = e.get key := by
  cases hget : e.get key with
  | some value => exact h _ (mem_of_get hget)
  | none =>
    rw [get_eq_none_iff] at hget ⊢
    intro item hitem hkey
    obtain ⟨other, hother, hsame⟩ := List.mem_map.mp (hkeys (List.mem_map_of_mem hitem))
    exact hget other hother (hsame.trans hkey)

@[simp] theorem get_set_self (d : Dict κ ν) (key : κ) (value : ν) :
    (d.set key value).get key = some value := by
  have h : ∀ items : List (κ × ν),
      ((setItem items key value).find? fun item => item.1 = key) = some (key, value) := by
    intro items
    induction items with
    | nil => simp [setItem]
    | cons item rest ih =>
      unfold setItem
      split
      · exact List.find?_cons_of_pos (by simp)
      · rename_i hkey
        rw [List.find?_cons_of_neg (by simpa using hkey), ih]
  rw [get, set, h]
  rfl

theorem get_set_of_ne (d : Dict κ ν) {key k : κ} (hne : k ≠ key) (value : ν) :
    (d.set key value).get k = d.get k := by
  have h : ∀ items : List (κ × ν),
      ((setItem items key value).find? fun item => item.1 = k) =
        items.find? fun item => item.1 = k := by
    intro items
    induction items with
    | nil => simp [setItem, Ne.symm hne]
    | cons item rest ih =>
      unfold setItem
      split
      · rename_i hkey
        rw [List.find?_cons_of_neg (by simpa using Ne.symm hne),
          List.find?_cons_of_neg (by simpa [hkey] using Ne.symm hne)]
      · by_cases hk : item.1 = k
        · rw [List.find?_cons_of_pos (by simpa using hk),
            List.find?_cons_of_pos (by simpa using hk)]
        · rw [List.find?_cons_of_neg (by simpa using hk),
            List.find?_cons_of_neg (by simpa using hk), ih]
  rw [get, get, set, h]

@[simp] theorem get_pop_self (d : Dict κ ν) (key : κ) : (d.pop key).get key = none := by
  rw [get_eq_none_iff]
  intro item hitem
  simpa using (List.mem_filter.mp hitem).2

theorem get_pop_of_ne (d : Dict κ ν) {key k : κ} (hne : k ≠ key) : (d.pop key).get k = d.get k := by
  cases hget : d.get k with
  | some value =>
    refine get_of_mem (List.mem_filter.mpr ⟨mem_of_get hget, ?_⟩)
    simpa using hne
  | none =>
    rw [get_eq_none_iff] at hget ⊢
    intro item hitem
    exact hget item (List.mem_of_mem_filter hitem)

theorem get_set (d : Dict κ ν) (key k : κ) (value : ν) :
    (d.set key value).get k = if key = k then some value else d.get k := by
  split
  · rename_i hk
    rw [hk, get_set_self]
  · rename_i hk
    exact get_set_of_ne d (Ne.symm hk) value

theorem get_pop (d : Dict κ ν) (key k : κ) :
    (d.pop key).get k = if key = k then none else d.get k := by
  split
  · rename_i hk
    rw [hk, get_pop_self]
  · rename_i hk
    exact get_pop_of_ne d (Ne.symm hk)

end Dict

end ClaudeCodeBridge.Program
