import ClaudeCodeBridge.Program.Frames

/-!
# What each access of a program guarantees

An invariant says what every stop of a program leaves behind; a guarantee says what every
access does to the store (`Course A C p Q s`).  A program is gone through once for its
guarantee, and each invariant that `C` keeps follows (`Course.along`): it holds at every stop.

The rules follow the shape of programs.  `Course.keeps` adds to a postcondition what `C`
keeps, `Course.leaves` what the accesses of `p`, by `Each`, leave alone.
-/

set_option autoImplicit false

namespace ClaudeCodeBridge.Program

namespace Prog

variable {ℓ σ τ ε α β : Type} {A C : σ → σ → Prop}

variable {p : Prog ℓ σ ε α} {s : σ} {Q : α → σ → Prop}

theorem course_pure {a : α} (hQ : Q a s) : Course A C (pure a : Prog ℓ σ ε α) Q s := hQ

theorem course_read {l : ℓ} {g : σ → α} (hC : C s s)
    (hQ : Q (g s) s) : Course A C (read l g : Prog ℓ σ ε α) Q s := fun _ => ⟨hC, hQ⟩

theorem course_write {l : ℓ} {f : σ → σ} {Q : Unit → σ → Prop}
    (h : A s (f s) → C s (f s) ∧ Q () (f s)) : Course A C (write l f : Prog ℓ σ ε Unit) Q s := h

variable {J : σ → Prop}

theorem Course.keeps (hJ : ∀ s s', A s s' → C s s' → J s → J s') (hs : J s) (h : Course A C p Q s) :
    Course A C p (fun a s' => Q a s' ∧ J s') s := by
  induction p generalizing s with
  | ret a => exact ⟨h, hs⟩
  | raise e => trivial
  | access l g k ih =>
    intro ha
    obtain ⟨hC, hrest⟩ := h ha
    exact ⟨hC, ih s (hJ s (g s) ha hC hs) hrest⟩
  | acquire k ih => exact ih hs h
  | release k ih => exact ih hs h

variable {B : ℓ → (σ → σ) → Prop}

theorem Course.leaves (hJ : ∀ l f, B l f → ∀ s, J s → J (f s)) (hp : p.Each B)
    (hs : J s) (h : Course A C p Q s) : Course A C p (fun a s' => Q a s' ∧ J s') s := by
  induction p generalizing s with
  | ret a => exact ⟨h, hs⟩
  | raise e => trivial
  | access l g k ih =>
    exact fun ha => ⟨(h ha).1, ih s (hp.2 s) (hJ l g hp.1 s hs) (h ha).2⟩
  | acquire k ih => exact ih hp hs h
  | release k ih => exact ih hp hs h

theorem Course.of_each (h : ∀ l f, B l f → ∀ s, C s (f s)) (hp : p.Each B) :
    Course A C p (fun _ _ => True) s := by
  induction p generalizing s with
  | ret a => trivial
  | raise e => trivial
  | access l f k ih => exact fun _ => ⟨h l f hp.1 s, ih s (hp.2 s)⟩
  | acquire k ih => exact ih hp
  | release k ih => exact ih hp

theorem Course.tryCatch {L : σ → Prop} {h : ε → Prog ℓ σ ε α}
    (hJ : ∀ s s', A s s' → C s s' → J s → J s') (hs : J s)
    (hL : ∀ l f, B l f → ∀ s, L s → L (f s)) (hb : p.Each B) (hl : L s)
    (hp : Course A C p Q s) (hh : ∀ e s', J s' → L s' → Course A C (h e) Q s') :
    Course A C (p.tryCatch h) Q s := by
  induction p generalizing s with
  | ret a => exact hp
  | raise e => exact hh e s hs hl
  | access l f k ih =>
    intro ha
    obtain ⟨hC, hrest⟩ := hp ha
    exact ⟨hC, ih s (hJ s (f s) ha hC hs) (hb.2 s) (hL l f hb.1 s hl) hrest⟩
  | acquire k ih | release k ih => exact ih hs hb hl hp

/-- Over a part of the store, the rest of it stays; what `p` guarantees of the part may
name the rest. -/
theorem Course.zoom {κ : Type} {n : κ → ℓ} {g : σ → τ} {u : τ → σ → σ}
    {C' : τ → τ → Prop} {p : Prog κ τ ε α} {Q : α → τ → Prop} {t : τ}
    (get_set : ∀ t s, g (u t s) = t) (set_set : ∀ t t' s, u t (u t' s) = u t s)
    (hC : ∀ t t', C' t t' → C (u t s) (u t' s)) (h : Course (fun _ _ => True) C' p Q t) :
    Course A C (Prog.zoom n g u p) (fun a s' => ∃ t', s' = u t' s ∧ Q a t') (u t s) := by
  induction p generalizing t with
  | ret a => exact ⟨t, rfl, h⟩
  | raise e => trivial
  | access l f k ih =>
    obtain ⟨hguarantee, hrest⟩ := h trivial
    rw [Prog.zoom]
    intro ha
    simp only [get_set, set_set] at ha ⊢
    exact ⟨hC t (f t) hguarantee, ih t hrest⟩
  | acquire k ih => exact ih h
  | release k ih => exact ih h

theorem Course.strengthen {B : σ → σ → Prop} (hB : ∀ s s', B s s' → A s s')
    (h : Course A C p Q s) : Course B C p Q s := by
  induction p generalizing s with
  | ret a => exact h
  | raise e => trivial
  | access l f k ih =>
    intro hb
    obtain ⟨hC, hrest⟩ := h (hB s (f s) hb)
    exact ⟨hC, ih s hrest⟩
  | acquire k ih => exact ih h
  | release k ih => exact ih h

theorem Course.along (hJ : ∀ s s', A s s' → C s s' → J s → J s') (hs : J s) (h : Course A C p Q s) :
    Along A J p (fun a s' => Q a s' ∧ J s') s := by
  induction p generalizing s with
  | ret a => exact ⟨h, hs⟩
  | raise e => trivial
  | access l f k ih =>
    intro ha
    obtain ⟨hC, hrest⟩ := h ha
    have hnext := hJ s (f s) ha hC hs
    exact ⟨hnext, ih s hnext hrest⟩
  | acquire k ih => exact ih hs h
  | release k ih => exact ih hs h

end Prog

end ClaudeCodeBridge.Program
