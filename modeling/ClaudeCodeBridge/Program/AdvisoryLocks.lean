import Mathlib.Tactic.Common

/-!
# A file with advisory locks

One name, the files that it has named, and the descriptors that are open.  A name that is taken
away and made again names another file; who has the old one open keeps it.  A file is locked by at
most one descriptor, until that unlocks it or is closed.

The ladder: each operation keeps the table well formed, and says what it leaves of the descriptors
and locks of others (`opened_...`, `locked_...`).  While every locked file is the named one
(`OnName`), two descriptors that have a lock are one (`OnName.unique`).
-/

set_option autoImplicit false

namespace ClaudeCodeBridge.Program

/-- An open descriptor: whose it is, and the file it was opened on. -/
structure Descriptor (ω : Type) where
  owner : ω
  inode : ℕ
  deriving DecidableEq

structure FileTable (ω γ : Type) where
  named : Option ℕ
  next_inode : ℕ
  content : ℕ → γ
  opened : ℕ → Option (Descriptor ω)
  next_descriptor : ℕ
  /-- The descriptor that has the lock of a file. -/
  locked : ℕ → Option ℕ

namespace FileTable

variable {ω γ : Type} {t : FileTable ω γ} {d e i : ℕ} {desc : Descriptor ω}

/-- The named file, made if there is none. -/
def ensure_named (t : FileTable ω γ) (empty : γ) : FileTable ω γ × ℕ :=
  match t.named with
  | some inode => (t, inode)
  | none =>
    ({ t with
        named := some t.next_inode
        next_inode := t.next_inode + 1
        content := Function.update t.content t.next_inode empty }, t.next_inode)

/-- Open the name, with the descriptor. -/
def open_named (t : FileTable ω γ) (empty : γ) (owner : ω) : FileTable ω γ × ℕ :=
  let named := t.ensure_named empty
  ({ named.1 with
      opened := Function.update t.opened t.next_descriptor (some ⟨owner, named.2⟩)
      next_descriptor := t.next_descriptor + 1 }, t.next_descriptor)

/-- Take the lock, unless another descriptor has it. -/
def flock (t : FileTable ω γ) (d : ℕ) : Option (FileTable ω γ) :=
  (t.opened d).bind fun desc =>
    if t.locked desc.inode = none ∨ t.locked desc.inode = some d then
      some { t with locked := Function.update t.locked desc.inode (some d) }
    else none

def unlock (t : FileTable ω γ) (d : ℕ) : FileTable ω γ :=
  { t with locked := fun i => if t.locked i = some d then none else t.locked i }

def close (t : FileTable ω γ) (d : ℕ) : FileTable ω γ :=
  { t.unlock d with opened := Function.update t.opened d none }

def unlink (t : FileTable ω γ) : FileTable ω γ := { t with named := none }

def write (t : FileTable ω γ) (d : ℕ) (content : γ) : FileTable ω γ :=
  match t.opened d with
  | none => t
  | some desc => { t with content := Function.update t.content desc.inode content }

/-- What the named file has. -/
def read_named (t : FileTable ω γ) : Option γ := t.named.map t.content

/-- Close what these owners have open. -/
def drop (t : FileTable ω γ) (dead : ω → Bool) : FileTable ω γ :=
  { t with
    opened := fun d => (t.opened d).filter fun desc => !dead desc.owner
    locked := fun i => (t.locked i).filter fun d => (t.opened d).any fun desc => !dead desc.owner }

structure WellFormed (t : FileTable ω γ) : Prop where
  opened_lt : ∀ d desc, t.opened d = some desc → d < t.next_descriptor
  locked_opened : ∀ i d, t.locked i = some d → ∃ desc, t.opened d = some desc ∧ desc.inode = i

/-- Only the named file is locked. -/
def OnName (t : FileTable ω γ) : Prop := ∀ i d, t.locked i = some d → t.named = some i

theorem OnName.unique {j : ℕ} (h : t.OnName) (hd : t.locked i = some d) (he : t.locked j = some e) :
    d = e := by
  have hi := h i d hd
  rw [h j e he, Option.some.injEq] at hi
  subst hi
  exact Option.some.inj (hd.symm.trans he)

theorem opened_open_named (t : FileTable ω γ) (empty : γ) (owner : ω) (d : ℕ) :
    (t.open_named empty owner).1.opened d =
      if d = t.next_descriptor then some ⟨owner, (t.ensure_named empty).2⟩ else t.opened d := by
  unfold open_named
  dsimp only
  rw [Function.update_apply]

theorem locked_open_named (t : FileTable ω γ) (empty : γ) (owner : ω) :
    (t.open_named empty owner).1.locked = t.locked := by
  unfold open_named ensure_named
  dsimp only
  cases t.named <;> rfl

theorem next_open_named (t : FileTable ω γ) (empty : γ) (owner : ω) :
    (t.open_named empty owner).1.next_descriptor = t.next_descriptor + 1 := rfl

theorem named_open_named (t : FileTable ω γ) (empty : γ) (owner : ω) (h : t.named = some i) :
    (t.open_named empty owner).1.named = some i := by
  unfold open_named ensure_named
  rw [h]
  exact h

theorem WellFormed.open_named (h : t.WellFormed) (empty : γ) (owner : ω) :
    (t.open_named empty owner).1.WellFormed := by
  constructor
  · intro d desc hopened
    rw [opened_open_named] at hopened
    rw [next_open_named]
    split at hopened
    · omega
    · have hlt := h.opened_lt d desc hopened
      omega
  · intro i d hlocked
    rw [locked_open_named] at hlocked
    obtain ⟨desc, hopened, hinode⟩ := h.locked_opened i d hlocked
    have hlt := h.opened_lt d desc hopened
    refine ⟨desc, ?_, hinode⟩
    rw [opened_open_named, if_neg (by omega)]
    exact hopened

theorem OnName.open_named (h : t.OnName) (empty : γ) (owner : ω) :
    (t.open_named empty owner).1.OnName := by
  intro i d hlocked
  rw [locked_open_named] at hlocked
  exact named_open_named t empty owner (h i d hlocked)

theorem flock_eq_some {taken : FileTable ω γ} (h : t.flock d = some taken) :
    ∃ desc, t.opened d = some desc ∧
      (t.locked desc.inode = none ∨ t.locked desc.inode = some d) ∧
      taken = { t with locked := Function.update t.locked desc.inode (some d) } := by
  unfold flock at h
  obtain ⟨desc, hopened, htaken⟩ := Option.bind_eq_some_iff.mp h
  split at htaken
  · rename_i hfree
    exact ⟨desc, hopened, hfree, (Option.some.inj htaken).symm⟩
  · cases htaken

theorem locked_of_flock {taken : FileTable ω γ} (h : t.flock d = some taken)
    (hlocked : t.locked i = some e) : taken.locked i = some e := by
  obtain ⟨desc, _, hfree, rfl⟩ := flock_eq_some h
  dsimp only
  rw [Function.update_apply]
  split
  · rename_i hsame
    subst hsame
    rw [hlocked] at hfree
    rcases hfree with hnone | hsame
    · cases hnone
    · exact hsame.symm
  · exact hlocked

theorem WellFormed.flock {taken : FileTable ω γ} (h : t.WellFormed)
    (htaken : t.flock d = some taken) : taken.WellFormed := by
  obtain ⟨desc, hopened, _, rfl⟩ := flock_eq_some htaken
  refine ⟨h.opened_lt, ?_⟩
  intro i e hlocked
  dsimp only at hlocked ⊢
  rw [Function.update_apply] at hlocked
  split at hlocked
  · rename_i hsame
    obtain rfl := Option.some.inj hlocked
    exact ⟨desc, hopened, hsame.symm⟩
  · exact h.locked_opened i e hlocked

theorem OnName.flock {taken : FileTable ω γ} (h : t.OnName) (htaken : t.flock d = some taken)
    (hnamed : ∀ desc, t.opened d = some desc → t.named = some desc.inode) : taken.OnName := by
  obtain ⟨desc, hopened, _, rfl⟩ := flock_eq_some htaken
  intro i e hlocked
  dsimp only at hlocked ⊢
  rw [Function.update_apply] at hlocked
  split at hlocked
  · rename_i hsame
    rw [hsame]
    exact hnamed desc hopened
  · exact h i e hlocked

theorem locked_unlock_iff : (t.unlock d).locked i = some e ↔ t.locked i = some e ∧ e ≠ d := by
  unfold unlock
  dsimp only
  constructor
  · intro h
    split at h
    · cases h
    · rename_i hne
      refine ⟨h, ?_⟩
      rintro rfl
      exact hne h
  · rintro ⟨hlocked, hne⟩
    rw [if_neg, hlocked]
    rw [hlocked, Option.some.injEq]
    exact hne

theorem WellFormed.unlock (h : t.WellFormed) (d : ℕ) : (t.unlock d).WellFormed := by
  refine ⟨h.opened_lt, ?_⟩
  intro i e hlocked
  exact h.locked_opened i e (locked_unlock_iff.mp hlocked).1

theorem OnName.unlock (h : t.OnName) (d : ℕ) : (t.unlock d).OnName := by
  intro i e hlocked
  exact h i e (locked_unlock_iff.mp hlocked).1

theorem opened_close (t : FileTable ω γ) (d e : ℕ) :
    (t.close d).opened e = if e = d then none else t.opened e := by
  unfold close
  dsimp only
  rw [Function.update_apply]

theorem locked_close_iff : (t.close d).locked i = some e ↔ t.locked i = some e ∧ e ≠ d :=
  locked_unlock_iff

theorem WellFormed.close (h : t.WellFormed) (d : ℕ) : (t.close d).WellFormed := by
  constructor
  · intro e desc hopened
    rw [opened_close] at hopened
    split at hopened
    · cases hopened
    · exact h.opened_lt e desc hopened
  · intro i e hlocked
    obtain ⟨hbefore, hne⟩ := locked_close_iff.mp hlocked
    obtain ⟨desc, hopened, hinode⟩ := h.locked_opened i e hbefore
    refine ⟨desc, ?_, hinode⟩
    rw [opened_close, if_neg hne]
    exact hopened

theorem OnName.close (h : t.OnName) (d : ℕ) : (t.close d).OnName := h.unlock d

theorem WellFormed.unlink (h : t.WellFormed) : t.unlink.WellFormed :=
  ⟨h.opened_lt, h.locked_opened⟩

theorem OnName.unlink (h : t.OnName) (hfree : ∀ i, t.named = some i → t.locked i = none) :
    t.unlink.OnName := by
  intro i d hlocked
  have hnone := hfree i (h i d hlocked)
  have hsome : t.locked i = some d := hlocked
  rw [hnone] at hsome
  cases hsome

theorem opened_write (t : FileTable ω γ) (d : ℕ) (content : γ) :
    (t.write d content).opened = t.opened := by
  unfold write
  split <;> rfl

theorem locked_write (t : FileTable ω γ) (d : ℕ) (content : γ) :
    (t.write d content).locked = t.locked := by
  unfold write
  split <;> rfl

theorem next_write (t : FileTable ω γ) (d : ℕ) (content : γ) :
    (t.write d content).next_descriptor = t.next_descriptor := by
  unfold write
  split <;> rfl

theorem WellFormed.write (h : t.WellFormed) (d : ℕ) (content : γ) :
    (t.write d content).WellFormed := by
  constructor
  · intro e desc hopened
    rw [opened_write] at hopened
    rw [next_write]
    exact h.opened_lt e desc hopened
  · intro i e hlocked
    rw [locked_write] at hlocked
    rw [opened_write]
    exact h.locked_opened i e hlocked

theorem OnName.write (h : t.OnName) (d : ℕ) (content : γ) : (t.write d content).OnName := by
  intro i e hlocked
  rw [locked_write] at hlocked
  have hnamed : (t.write d content).named = t.named := by
    unfold FileTable.write
    split <;> rfl
  rw [hnamed]
  exact h i e hlocked

theorem opened_drop_iff {dead : ω → Bool} :
    (t.drop dead).opened d = some desc ↔ t.opened d = some desc ∧ dead desc.owner = false := by
  unfold drop
  dsimp only
  rw [Option.filter_eq_some_iff, Bool.not_eq_true']

theorem locked_drop_iff {dead : ω → Bool} :
    (t.drop dead).locked i = some d ↔
      t.locked i = some d ∧ ∃ desc, t.opened d = some desc ∧ dead desc.owner = false := by
  unfold drop
  dsimp only
  rw [Option.filter_eq_some_iff, Option.any_eq_true]
  apply and_congr_right
  intro _
  apply exists_congr
  intro desc
  rw [Bool.not_eq_true']

theorem WellFormed.drop (h : t.WellFormed) (dead : ω → Bool) : (t.drop dead).WellFormed := by
  constructor
  · intro d desc hopened
    exact h.opened_lt d desc (opened_drop_iff.mp hopened).1
  · intro i d hlocked
    obtain ⟨hbefore, desc, hopened, halive⟩ := locked_drop_iff.mp hlocked
    obtain ⟨found, hfound, hinode⟩ := h.locked_opened i d hbefore
    obtain rfl := Option.some.inj (hfound.symm.trans hopened)
    exact ⟨found, opened_drop_iff.mpr ⟨hopened, halive⟩, hinode⟩

theorem OnName.drop (h : t.OnName) (dead : ω → Bool) : (t.drop dead).OnName := by
  intro i d hlocked
  exact h i d (locked_drop_iff.mp hlocked).1

end FileTable

end ClaudeCodeBridge.Program
