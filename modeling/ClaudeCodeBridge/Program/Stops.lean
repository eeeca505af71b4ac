import ClaudeCodeBridge.Program.Prog

/-!
# A process that may stop

A process can stop after any of its accesses; the store then keeps what was written and
the rest of the program is lost.  `stopAfter n p s` is the store that a stop after `n`
steps leaves, `trace n p s` the accesses made until then, as pairs of the store before
and after.  With `n` large enough nothing is lost (`exists_stopAfter_eq_run`).

`Course A C p Q s` says that, as long as the accesses of `p` satisfy `A`, each of them is one
of `C`, and a completed `p` returns in `Q`.  `Along A I p Q s` is its case of an invariant `I`
that holds at every stop.
-/

set_option autoImplicit false

namespace ClaudeCodeBridge.Program

namespace Prog

variable {ℓ σ τ ε α β : Type}

/-- The store when the process stops after `n` steps of `p`. -/
def stopAfter : ℕ → Prog ℓ σ ε α → σ → σ
  | 0, _, s => s
  | _ + 1, ret _, s => s
  | _ + 1, raise _, s => s
  | n + 1, access _ f k, s => stopAfter n (k s) (f s)
  | n + 1, acquire k, s => stopAfter n k s
  | n + 1, release k, s => stopAfter n k s

/-- The accesses among the first `n` steps of `p`. -/
def trace : ℕ → Prog ℓ σ ε α → σ → List (σ × σ)
  | 0, _, _ => []
  | _ + 1, ret _, _ => []
  | _ + 1, raise _, _ => []
  | n + 1, access _ f k, s => (s, f s) :: trace n (k s) (f s)
  | n + 1, acquire k, s => trace n k s
  | n + 1, release k, s => trace n k s

theorem exists_stopAfter_eq_run (p : Prog ℓ σ ε α) (s : σ) :
    ∃ n, stopAfter n p s = (p.run s).2 := by
  induction p generalizing s with
  | ret a => exact ⟨0, rfl⟩
  | raise e => exact ⟨0, rfl⟩
  | access l f k ih =>
    obtain ⟨n, hn⟩ := ih s (f s)
    exact ⟨n + 1, hn⟩
  | acquire k ih | release k ih =>
    obtain ⟨n, hn⟩ := ih s
    exact ⟨n + 1, hn⟩

theorem stopAfter_zoom {κ : Type} {name : κ → ℓ} {get : σ → τ} {set : τ → σ → σ}
    (get_set : ∀ t s, get (set t s) = t) (set_set : ∀ t u s, set t (set u s) = set t s)
    (set_get : ∀ s, set (get s) s = s) (n : ℕ) (p : Prog κ τ ε α) (s : σ) :
    stopAfter n (zoom name get set p) s = set (stopAfter n p (get s)) s := by
  induction n generalizing p s with
  | zero => exact (set_get s).symm
  | succ n ih =>
    cases p with
    | ret a | raise e => exact (set_get s).symm
    | access l f k =>
      show stopAfter n (zoom name get set (k (get s))) (set (f (get s)) s) = _
      rw [ih, get_set, set_set]
      rfl
    | acquire k => exact ih k s
    | release k => exact ih k s

/-- As long as the accesses of `p` satisfy `A`, each is one of `C`, and a completed `p`
returns in `Q`. -/
def Course (A C : σ → σ → Prop) : Prog ℓ σ ε α → (α → σ → Prop) → σ → Prop
  | ret a, Q, s => Q a s
  | raise _, _, _ => True
  | access _ f k, Q, s => A s (f s) → C s (f s) ∧ Course A C (k s) Q (f s)
  | acquire k, Q, s => Course A C k Q s
  | release k, Q, s => Course A C k Q s

variable {A C : σ → σ → Prop} {p : Prog ℓ σ ε α} {f : α → Prog ℓ σ ε β} {s : σ}

theorem Course.bind {Q : β → σ → Prop}
    (h : Course A C p (fun a s' => Course A C (f a) Q s') s) : Course A C (p.bind f) Q s := by
  induction p generalizing s with
  | ret a => exact h
  | raise e => trivial
  | access l g k ih => exact fun ha => ⟨(h ha).1, ih s (h ha).2⟩
  | acquire k ih => exact ih h
  | release k ih => exact ih h

variable {Q : α → σ → Prop}

theorem Course.mono {R : α → σ → Prop} (h : Course A C p Q s)
    (hQR : ∀ a s', Q a s' → R a s') : Course A C p R s := by
  induction p generalizing s with
  | ret a => exact hQR a s h
  | raise e => trivial
  | access l g k ih => exact fun ha => ⟨(h ha).1, ih s (h ha).2⟩
  | acquire k ih => exact ih h
  | release k ih => exact ih h

theorem Course.withLock (h : Course A C p Q s) : Course A C (withLock p) Q s := by
  show Course A C (withLock.close p) Q s
  induction p generalizing s with
  | ret a => exact h
  | raise e => trivial
  | access l f k ih => exact fun ha => ⟨(h ha).1, ih s (h ha).2⟩
  | acquire k ih => exact ih h
  | release k ih => exact ih h

/-- Each access that satisfies `A` ends in `I`, and a completed `p` returns in `Q`. -/
abbrev Along (A : σ → σ → Prop) (I : σ → Prop) : Prog ℓ σ ε α → (α → σ → Prop) → σ → Prop :=
  Course A fun _ => I

variable {I : σ → Prop}

theorem Along.bind {Q : β → σ → Prop}
    (h : Along A I p (fun a s' => Along A I (f a) Q s') s) : Along A I (p.bind f) Q s :=
  Course.bind h

theorem Along.mono {R : α → σ → Prop} (h : Along A I p Q s)
    (hQR : ∀ a s', Q a s' → R a s') : Along A I p R s :=
  Course.mono h hQR

theorem Along.withLock (h : Along A I p Q s) : Along A I (withLock p) Q s :=
  Course.withLock h

theorem Along.close {leave : ℓ} (hI : I s)
    (h : Along A I p Q s) : Along A I (within.close leave p) Q s := by
  induction p generalizing s with
  | ret a => exact fun _ => ⟨hI, h⟩
  | raise e => exact fun _ => ⟨hI, trivial⟩
  | access l f k ih => exact fun ha => ⟨(h ha).1, ih s (h ha).1 (h ha).2⟩
  | acquire k ih => exact ih hI h
  | release k ih => exact ih hI h

theorem Along.within {enter leave : ℓ} (hI : I s)
    (h : Along A I p Q s) : Along A I (within enter leave p) Q s :=
  fun _ => ⟨hI, h.close hI⟩

variable {x : Except ε α}

theorem along_ofExcept
    (h : ∀ a, x = .ok a → Q a s) : Along A I (ofExcept x : Prog ℓ σ ε α) Q s := by
  cases x with
  | error e => trivial
  | ok a => exact h a rfl

variable {l : ℓ}

theorem along_inspect {g : σ → Except ε α} (hI : I s)
    (h : ∀ a, g s = .ok a → Q a s) : Along A I (inspect l g : Prog ℓ σ ε α) Q s :=
  fun _ => ⟨hI, along_ofExcept h⟩

theorem along_attempt {g : σ → Except ε σ} {Q : Unit → σ → Prop} (hI : I s)
    (h : ∀ s', g s = .ok s' → I s' ∧ Q () s') :
    Along A I (attempt l g : Prog ℓ σ ε Unit) Q s := by
  have hboth : I ((g s).toOption.getD s) ∧
      ∀ a, (g s).map (fun _ => ()) = .ok a → Q a ((g s).toOption.getD s) := by
    cases hg : g s with
    | error e => exact ⟨hI, fun a ha => by simp [Except.map] at ha⟩
    | ok s' => exact ⟨(h s' hg).1, fun _ _ => (h s' hg).2⟩
  exact fun _ => ⟨hboth.1, along_ofExcept hboth.2⟩

theorem Along.forEach {xs : List β} {body : β → Prog ℓ σ ε Unit} {K : σ → Prop}
    (hK : K s) (h : ∀ x ∈ xs, ∀ s', K s' → Along A I (body x) (fun _ => K) s') :
    Along A I (forEach xs body) (fun _ => K) s := by
  induction xs generalizing s with
  | nil => exact hK
  | cons x xs ih =>
    apply Along.bind
    refine (h x List.mem_cons_self s hK).mono fun _ s' hs' => ih hs' fun y hy => ?_
    exact h y (List.mem_cons_of_mem x hy)

theorem Along.ite {c : Prop} [Decidable c] {q : Prog ℓ σ ε α}
    (hp : c → Along A I p Q s) (hq : ¬ c → Along A I q Q s) :
    Along A I (if c then p else q) Q s := by
  split
  · rename_i h
    exact hp h
  · rename_i h
    exact hq h

theorem along_pure {a : α} (hQ : Q a s) : Along A I (pure a : Prog ℓ σ ε α) Q s := hQ

variable {g : σ → α}

theorem along_read (hI : I s)
    (hQ : Q (g s) s) : Along A I (read l g : Prog ℓ σ ε α) Q s := fun _ => ⟨hI, hQ⟩

theorem along_read_bind {Q : β → σ → Prop}
    (hI : I s) (h : Along A I (f (g s)) Q s) : Along A I ((read l g).bind f) Q s :=
  fun _ => ⟨hI, h⟩

theorem along_reads_bind {γ : Type} {m : ℓ} {k : σ → γ} {f : α → γ → Prog ℓ σ ε β}
    {Q : β → σ → Prop} (hI : I s) (h : Along A I (f (g s) (k s)) Q s) :
    Along A I ((read l g).bind fun a => (read m k).bind (f a)) Q s :=
  along_read_bind hI (along_read_bind hI h)

theorem along_ofExcept_bind {Q : β → σ → Prop}
    (h : ∀ a, x = .ok a → Along A I (f a) Q s) : Along A I ((ofExcept x).bind f) Q s :=
  Along.bind (along_ofExcept h)

theorem along_write {f : σ → σ} {Q : Unit → σ → Prop}
    (h : A s (f s) → I (f s) ∧ Q () (f s)) : Along A I (write l f : Prog ℓ σ ε Unit) Q s := h

theorem Along.stopAfter (hI : I s)
    (h : Along A I p Q s) (n : ℕ) (hA : ∀ t ∈ trace n p s, A t.1 t.2) :
    I (stopAfter n p s) := by
  induction n generalizing p s with
  | zero => exact hI
  | succ n ih =>
    cases p with
    | ret a => exact hI
    | raise e => exact hI
    | access l f k =>
      have hfirst := h (hA (s, f s) List.mem_cons_self)
      exact ih hfirst.1 hfirst.2 fun t ht => hA t (List.mem_cons_of_mem _ ht)
    | acquire k => exact ih hI h hA
    | release k => exact ih hI h hA

theorem Along.run (hI : I s) (h : Along (fun _ _ => True) I p Q s) :
    I (p.run s).2 ∧ ∀ a, (p.run s).1 = .ok a → Q a (p.run s).2 := by
  induction p generalizing s with
  | ret a =>
    refine ⟨hI, fun b hb => ?_⟩
    simp only [run_ret, Except.ok.injEq] at hb
    rw [← hb]
    exact h
  | raise e => exact ⟨hI, fun b hb => by simp at hb⟩
  | access l f k ih => exact ih s (h trivial).1 (h trivial).2
  | acquire k ih => exact ih hI h
  | release k ih => exact ih hI h

/-- A program that completes returns in `Q`, and one that raises leaves the store in `E`. -/
def Ends (Q : α → σ → Prop) (E : σ → Prop) : Prog ℓ σ ε α → σ → Prop
  | ret a, s => Q a s
  | raise _, s => E s
  | access _ f k, s => Ends Q E (k s) (f s)
  | acquire k, s => Ends Q E k s
  | release k, s => Ends Q E k s

variable {E : σ → Prop}

theorem Ends.bind {Q : β → σ → Prop}
    (h : Ends (fun a s' => Ends Q E (f a) s') E p s) : Ends Q E (p.bind f) s := by
  induction p generalizing s with
  | ret a => exact h
  | raise e => exact h
  | access l g k ih => exact ih s h
  | acquire k ih => exact ih h
  | release k ih => exact ih h

theorem Ends.mono {R : α → σ → Prop} (h : Ends Q E p s)
    (hQR : ∀ a s', Q a s' → R a s') : Ends R E p s := by
  induction p generalizing s with
  | ret a => exact hQR a s h
  | raise e => exact h
  | access l g k ih => exact ih s h
  | acquire k ih => exact ih h
  | release k ih => exact ih h

theorem ends_read_bind {Q : β → σ → Prop}
    (h : Ends Q E (f (g s)) s) : Ends Q E ((read l g).bind f) s := h

theorem ends_ofExcept_bind {Q : β → σ → Prop} (hE : E s) (h : ∀ a, x = .ok a → Ends Q E (f a) s) :
    Ends Q E ((ofExcept x).bind f) s := by
  cases x with
  | error e => exact hE
  | ok a => exact h a rfl

theorem Ends.ite {c : Prop} [Decidable c] {q : Prog ℓ σ ε α}
    (hp : c → Ends Q E p s) (hq : ¬ c → Ends Q E q s) : Ends Q E (if c then p else q) s := by
  split
  · rename_i h
    exact hp h
  · rename_i h
    exact hq h

theorem Ends.run (h : Ends (fun _ => E) E p s) : E (p.run s).2 := by
  induction p generalizing s with
  | ret a => exact h
  | raise e => exact h
  | access l g k ih => exact ih s h
  | acquire k ih => exact ih h
  | release k ih => exact ih h

end Prog

end ClaudeCodeBridge.Program
