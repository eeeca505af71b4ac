import ClaudeCodeBridge.Program.Stops

/-!
# What a program leaves alone

Most programs do not touch most of their store.  `Each A p` says that every access of `p`,
on every path, satisfies `A`; it is proved by the shape of the program alone and says
nothing of the values that are read.  Where an invariant is kept by all that satisfies `A`,
it holds at every stop of `p` (`Along.of_each`).

`Raises P p` says that every failure that `p` may raise satisfies `P`.
-/

set_option autoImplicit false

namespace ClaudeCodeBridge.Program

variable {ℓ σ τ ε α β : Type}

/-- Every access of the program, on every path, satisfies `A`. -/
def Prog.Each (A : ℓ → (σ → σ) → Prop) : Prog ℓ σ ε α → Prop
  | .ret _ => True
  | .raise _ => True
  | .access l f k => A l f ∧ ∀ s, (k s).Each A
  | .acquire k => k.Each A
  | .release k => k.Each A

variable {A : ℓ → (σ → σ) → Prop}

theorem Prog.Each.bind {p : Prog ℓ σ ε β} {f : β → Prog ℓ σ ε α}
    (hp : p.Each A) (hf : ∀ b, (f b).Each A) : (p.bind f).Each A := by
  induction p with
  | ret b => exact hf b
  | raise e => trivial
  | access l g k ih => exact ⟨hp.1, fun s => ih s (hp.2 s)⟩
  | acquire k ih => exact ih hp
  | release k ih => exact ih hp

theorem Prog.each_of_forall (h : ∀ l f, A l f) (p : Prog ℓ σ ε α) : p.Each A := by
  induction p with
  | ret a => trivial
  | raise e => trivial
  | access l f k ih => exact ⟨h l f, ih⟩
  | acquire k ih => exact ih
  | release k ih => exact ih

theorem Prog.Each.zoom {κ : Type} {B : κ → (τ → τ) → Prop}
    {name : κ → ℓ} {get : σ → τ} {set : τ → σ → σ} {p : Prog κ τ ε α}
    (h : ∀ l f, B l f → A (name l) fun s => set (f (get s)) s) (hp : p.Each B) :
    (Prog.zoom name get set p).Each A := by
  induction p with
  | ret a => trivial
  | raise e => trivial
  | access l f k ih => exact ⟨h l f hp.1, fun s => ih (get s) (hp.2 (get s))⟩
  | acquire k ih => exact ih hp
  | release k ih => exact ih hp

variable {p : Prog ℓ σ ε α}

theorem Prog.Each.mono {B : ℓ → (σ → σ) → Prop}
    (h : ∀ l f, A l f → B l f) (hp : p.Each A) : p.Each B := by
  induction p with
  | ret a => trivial
  | raise e => trivial
  | access l f k ih => exact ⟨h l f hp.1, fun s => ih s (hp.2 s)⟩
  | acquire k ih => exact ih hp
  | release k ih => exact ih hp

theorem Prog.Each.forEach {xs : List β}
    {body : β → Prog ℓ σ ε Unit} (h : ∀ x, (body x).Each A) : (Prog.forEach xs body).Each A := by
  induction xs with
  | nil => trivial
  | cons x xs ih => exact Prog.Each.bind (h x) fun _ => ih

theorem Prog.Each.ite {c : Prop} [Decidable c] {q : Prog ℓ σ ε α}
    (hp : p.Each A) (hq : q.Each A) : (if c then p else q).Each A := by
  split
  · exact hp
  · exact hq

theorem Prog.each_ofExcept (x : Except ε α) : (Prog.ofExcept x : Prog ℓ σ ε α).Each A := by
  cases x with
  | error e => trivial
  | ok a => trivial

variable {l : ℓ}

theorem Prog.each_read {g : σ → α} (h : A l id) : (Prog.read l g : Prog ℓ σ ε α).Each A :=
  ⟨h, fun _ => trivial⟩

theorem Prog.each_write {f : σ → σ} (h : A l f) : (Prog.write l f : Prog ℓ σ ε Unit).Each A :=
  ⟨h, fun _ => trivial⟩

theorem Prog.each_inspect {g : σ → Except ε α} (h : A l id) : (Prog.inspect l g).Each A :=
  ⟨h, fun s => Prog.each_ofExcept (g s)⟩

variable {s : σ}

theorem Prog.Along.of_each {I : σ → Prop}
    (h : ∀ l f, A l f → ∀ s, I s → I (f s)) (hp : p.Each A) (hs : I s) :
    Prog.Along (fun _ _ => True) I p (fun _ => I) s := by
  induction p generalizing s with
  | ret a => exact hs
  | raise e => trivial
  | access l f k ih =>
    have hnext := h l f hp.1 s hs
    exact fun _ => ⟨hnext, ih s (hp.2 s) hnext⟩
  | acquire k ih => exact ih hp hs
  | release k ih => exact ih hp hs

theorem Prog.Ends.of_each {I : σ → Prop}
    (h : ∀ l f, A l f → ∀ s, I s → I (f s)) (hp : p.Each A) (hs : I s) :
    Prog.Ends (fun _ => I) I p s := by
  induction p generalizing s with
  | ret a => exact hs
  | raise e => exact hs
  | access l f k ih => exact ih s (hp.2 s) (h l f hp.1 s hs)
  | acquire k ih => exact ih hp hs
  | release k ih => exact ih hp hs

/-- Every failure that the program may raise satisfies `P`. -/
def Prog.Raises (P : ε → Prop) : Prog ℓ σ ε α → Prop
  | .ret _ => True
  | .raise e => P e
  | .access _ _ k => ∀ s, (k s).Raises P
  | .acquire k => k.Raises P
  | .release k => k.Raises P

namespace Prog

variable {P : ε → Prop}

@[grind ←] theorem raises_pure (a : α) : (pure a : Prog ℓ σ ε α).Raises P := trivial

@[grind ←] theorem raises_read (l : ℓ) (g : σ → α) : (read l g : Prog ℓ σ ε α).Raises P :=
  fun _ => trivial

@[grind ←] theorem raises_write (l : ℓ) (f : σ → σ) :
    (write l f : Prog ℓ σ ε Unit).Raises P := fun _ => trivial

@[grind ←] theorem raises_update (l : ℓ) (g : σ → α) (f : σ → σ) :
    (update l g f : Prog ℓ σ ε α).Raises P := fun _ => trivial

@[grind ←] theorem Raises.bind {p : Prog ℓ σ ε β} {f : β → Prog ℓ σ ε α} (hp : p.Raises P)
    (hf : ∀ b, (f b).Raises P) : (p >>= f).Raises P := by
  induction p with
  | ret b => exact hf b
  | raise e => exact hp
  | access l g k ih => exact fun s => ih s (hp s)
  | acquire k ih => exact ih hp
  | release k ih => exact ih hp

theorem Raises.zoom {κ : Type} {name : κ → ℓ} {get : σ → τ} {set : τ → σ → σ}
    {p : Prog κ τ ε α} (hp : p.Raises P) : (Prog.zoom name get set p).Raises P := by
  induction p with
  | ret a => trivial
  | raise e => exact hp
  | access l f k ih => exact fun s => ih (get s) (hp (get s))
  | acquire k ih => exact ih hp
  | release k ih => exact ih hp

theorem Raises.run {p : Prog ℓ σ ε α} (hp : p.Raises P) {s : σ} {e : ε}
    (h : (p.run s).1 = .error e) : P e := by
  induction p generalizing s with
  | ret a => simp at h
  | raise e' =>
    simp only [run_raise, Except.error.injEq] at h
    exact h ▸ hp
  | access l f k ih => exact ih s (hp s) h
  | acquire k ih => exact ih hp h
  | release k ih => exact ih hp h

end Prog

namespace Prog

variable {I : σ → Prop}

end Prog

end ClaudeCodeBridge.Program
