import ClaudeCodeBridge.Program.Threads

/-!
# Locks that accesses name

Where there is more than one lock, a thread takes and gives back a lock at an access of its
own, and what an access does to the locks is a `Locking`.  `holders` says who holds which
lock after it; a schedule in which a lock is only taken while it is `free` is one that the
locks let happen.

A monitor sees the names of the accesses alone.  `signed` lets each access show what it does
to the store as well; it goes through the composition of programs (`signed_bind`), and
`safe_within` is the rule for what runs within a lock.
-/

set_option autoImplicit false

namespace ClaudeCodeBridge.Program

variable {ι κ ℓ σ ε α β γ : Type}

/-- What an access does to the locks. -/
inductive Locking (κ : Type) where
  | takes (lock : κ)
  | gives (lock : κ)
  | apart

variable [DecidableEq ι] [DecidableEq κ]

/-- The lock that an access takes is not held. -/
def free (locking : Locking κ) (holder : κ → Option ι) : Bool :=
  match locking with
  | .takes k => (holder k).isNone
  | _ => true

/-- The holders after an access of `i`. -/
def holders (i : ι) (locking : Locking κ) (holder : κ → Option ι) : κ → Option ι :=
  match locking with
  | .takes k => Function.update holder k (some i)
  | .gives k => if holder k = some i then Function.update holder k none else holder
  | .apart => holder

theorem holders_gives_of_ne {i : ι} {holder : κ → Option ι} {k given : κ} (hk : k ≠ given) :
    holders i (.gives given) holder k = holder k := by
  simp only [holders]
  by_cases hgiven : holder given = some i
  · rw [if_pos hgiven, Function.update_of_ne hk]
  · rw [if_neg hgiven]

theorem holders_of_ne {i j : ι} {locking : Locking κ} {holder : κ → Option ι} {k : κ}
    (hne : j ≠ i) (hfree : free locking holder = true) (h : holder k = some j) :
    holders i locking holder k = some j := by
  cases locking with
  | apart => exact h
  | takes taken =>
    have hk : k ≠ taken := by
      intro hk
      subst hk
      simp [free, h] at hfree
    rw [holders, Function.update_of_ne hk, h]
  | gives given =>
    by_cases hk : k = given
    · subst hk
      have hother : holder k ≠ some i := by
        rw [h]
        exact fun heq => hne (Option.some.inj heq)
      simp only [holders]
      rw [if_neg hother, h]
    · rw [holders_gives_of_ne hk, h]

namespace Prog

/-- The program, with each access named together with what it does. -/
def signed : Prog ℓ σ ε α → Prog (ℓ × (σ → σ)) σ ε α
  | ret a => ret a
  | raise e => raise e
  | access l f k => access (l, f) f fun s => signed (k s)
  | acquire k => acquire (signed k)
  | release k => release (signed k)

theorem signed_bind (p : Prog ℓ σ ε α) (f : α → Prog ℓ σ ε β) :
    (p.bind f).signed = p.signed.bind fun a => (f a).signed := by
  induction p with
  | ret a => rfl
  | raise e => rfl
  | access l g k ih => exact congrArg (access (l, g) g) (funext ih)
  | acquire k ih => exact congrArg acquire ih
  | release k ih => exact congrArg release ih

theorem Each.signed {A : ℓ → (σ → σ) → Prop} {p : Prog ℓ σ ε α} (hp : p.Each A) :
    p.signed.Each fun l f => l.2 = f ∧ A l.1 f := by
  induction p with
  | ret a => trivial
  | raise e => trivial
  | access l f k ih => exact ⟨⟨rfl, hp.1⟩, fun s => ih s (hp.2 s)⟩
  | acquire k ih => exact ih hp
  | release k ih => exact ih hp

end Prog

section Safe

variable {C : Contract ι (ℓ × (σ → σ)) σ γ} {i : ι} {Q : α → Shared ι σ γ → Prop}

theorem safe_close {leave : ℓ} {p : Prog ℓ σ ε α} {x : Shared ι σ γ}
    (hleave : ∀ y, C.inv y → C.Fair i y (C.after i (leave, id) id y))
    (hstable : ∀ a y z, Q a y → C.rely i y z → Q a z)
    (hgiven : ∀ a y, Q a y → Q a (C.after i (leave, id) id y))
    (h : Safe C i p.signed Q x) : Safe C i (Prog.within.close leave p).signed Q x := by
  induction p generalizing x with
  | ret a =>
    intro y hy hinv _
    have hQ := hgiven a y (h y hy hinv)
    exact ⟨hleave y hinv, fun z hz _ => hstable a _ z hQ hz⟩
  | raise e => exact fun y _ hinv _ => ⟨hleave y hinv, trivial⟩
  | access l f k ih =>
    intro y hy hinv hpermit
    obtain ⟨hfair, hrest⟩ := h y hy hinv hpermit
    exact ⟨hfair, ih y.store hrest⟩
  | acquire k ih =>
    intro y hy hinv held hgrab
    obtain ⟨hfair, hrest⟩ := h y hy hinv held hgrab
    exact ⟨hfair, ih hrest⟩
  | release k ih =>
    intro y hy hinv
    obtain ⟨hfair, hrest⟩ := h y hy hinv
    exact ⟨hfair, ih hrest⟩

/-- The rule for a section: what it runs is safe once the lock is taken, and its
postcondition outlives the lock. -/
theorem safe_within {enter leave : ℓ} {p : Prog ℓ σ ε α} {x : Shared ι σ γ}
    (hleave : ∀ y, C.inv y → C.Fair i y (C.after i (leave, id) id y))
    (hstable : ∀ a y z, Q a y → C.rely i y z → Q a z)
    (hgiven : ∀ a y, Q a y → Q a (C.after i (leave, id) id y))
    (henter : ∀ y, C.rely i x y → C.inv y → C.permits i (enter, id) y.store y.ghost = true →
      C.Fair i y (C.after i (enter, id) id y) ∧ Safe C i p.signed Q (C.after i (enter, id) id y)) :
    Safe C i (Prog.within enter leave p).signed Q x := by
  intro y hy hinv hpermit
  obtain ⟨hfair, hsection⟩ := henter y hy hinv hpermit
  exact ⟨hfair, safe_close hleave hstable hgiven hsection⟩

end Safe

end ClaudeCodeBridge.Program
