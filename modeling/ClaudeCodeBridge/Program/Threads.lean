import ClaudeCodeBridge.Program.Frames

/-!
# Interleaved threads

Threads take turns on one store: a schedule lists whose turn it is, and at each turn the
thread makes one access, or takes or gives back the one re-entrant lock.  A thread that
cannot take the lock, or has ended, lets its turn pass.

What a schedule does is judged by a monitor, which notes the accesses in a ghost state
and says which of them it permits; a schedule is clean when every access is permitted.
The reasoning is rely–guarantee: a `Contract` gives a global invariant and says for each
thread what it may rely on of the steps of the others; `Safe` says that a program, from a
shared state on, keeps the invariant, does nothing that the others do not rely on, and
returns in its postcondition, as long as its accesses are permitted.

The ladder: `Safe` is stable under what a thread relies on (`Safe.stable`) and composes
(`Safe.bind`); one turn keeps all threads safe (`safe_step`), and so does
every clean schedule (`safe_run`).
-/

set_option autoImplicit false

namespace ClaudeCodeBridge.Program

variable {ι ℓ σ τ ε α β γ : Type}

/-- The lock after `i` takes it, `none` while another thread holds it. -/
def grab [DecidableEq ι] (i : ι) : Option (ι × ℕ) → Option (ι × ℕ)
  | none => some (i, 1)
  | some (j, depth) => if j = i then some (i, depth + 1) else none

/-- The lock after `i` gives it back once. -/
def giveBack : Option (ι × ℕ) → Option (ι × ℕ)
  | some (j, depth + 2) => some (j, depth + 1)
  | _ => none

/-- The store, the lock with its holder and depth, and what each thread still has to do. -/
structure Config (ι ℓ σ ε α : Type) where
  store : σ
  lock : Option (ι × ℕ)
  thread : ι → Prog ℓ σ ε α

namespace Config

variable [DecidableEq ι]

/-- One turn of thread `i`. -/
def step (i : ι) (c : Config ι ℓ σ ε α) : Config ι ℓ σ ε α :=
  match c.thread i with
  | .ret _ => c
  | .raise _ => c
  | .access _ f k =>
    { c with store := f c.store, thread := Function.update c.thread i (k c.store) }
  | .acquire k =>
    match grab i c.lock with
    | none => c
    | some held => { c with lock := some held, thread := Function.update c.thread i k }
  | .release k => { c with lock := giveBack c.lock, thread := Function.update c.thread i k }

/-- The turns of a schedule, one after another. -/
def run : List ι → Config ι ℓ σ ε α → Config ι ℓ σ ε α
  | [], c => c
  | i :: schedule, c => run schedule (step i c)

theorem run_append (first second : List ι) (c : Config ι ℓ σ ε α) :
    c.run (first ++ second) = (c.run first).run second := by
  induction first generalizing c with
  | nil => rfl
  | cons i first ih => exact ih (c.step i)

/-- Thread `i` has nothing left to do. -/
def returned (i : ι) (c : Config ι ℓ σ ε α) : Bool :=
  match c.thread i with
  | .ret _ => true
  | _ => false

end Config

/-- Notes the accesses of a schedule in a ghost state `γ` and says which it permits. -/
structure Monitor (ι ℓ σ γ : Type) where
  permits : ι → ℓ → σ → γ → Bool
  /-- The ghost after an access, given the store before and after it. -/
  notes : ι → ℓ → σ → σ → γ → γ

/-- What the threads share, with the ghost of a monitor. -/
structure Shared (ι σ γ : Type) where
  store : σ
  lock : Option (ι × ℕ)
  ghost : γ

namespace Monitor

variable (M : Monitor ι ℓ σ γ)

/-- The shared state after an access. -/
def after (i : ι) (l : ℓ) (f : σ → σ) (x : Shared ι σ γ) : Shared ι σ γ :=
  { x with store := f x.store, ghost := M.notes i l x.store (f x.store) x.ghost }

/-- The ghost after a turn of thread `i`. -/
def watch (i : ι) (c : Config ι ℓ σ ε α) (g : γ) : γ :=
  match c.thread i with
  | .access l f _ => M.notes i l c.store (f c.store) g
  | _ => g

/-- The access that thread `i` makes in its turn, if it makes one, is permitted. -/
def permitted (i : ι) (c : Config ι ℓ σ ε α) (g : γ) : Bool :=
  match c.thread i with
  | .access l _ _ => M.permits i l c.store g
  | _ => true

variable [DecidableEq ι]

/-- Every access of the schedule is permitted. -/
def clean : List ι → Config ι ℓ σ ε α → γ → Bool
  | [], _, _ => true
  | i :: schedule, c, g => M.permitted i c g && clean schedule (c.step i) (M.watch i c g)

theorem clean_of_permits (h : ∀ i l s g, M.permits i l s g = true) (schedule : List ι)
    (c : Config ι ℓ σ ε α) (g : γ) : M.clean schedule c g = true := by
  induction schedule generalizing c g with
  | nil => rfl
  | cons i schedule ih =>
    have hpermitted : M.permitted i c g = true := by
      unfold permitted
      split
      · exact h _ _ _ _
      · rfl
    rw [clean, hpermitted, ih, Bool.true_and]

/-- The ghost at the end of a schedule. -/
def ghostAt : List ι → Config ι ℓ σ ε α → γ → γ
  | [], _, g => g
  | i :: schedule, c, g => ghostAt schedule (c.step i) (M.watch i c g)

theorem clean_append (first second : List ι) (c : Config ι ℓ σ ε α) (g : γ) :
    M.clean (first ++ second) c g =
      (M.clean first c g && M.clean second (c.run first) (M.ghostAt first c g)) := by
  induction first generalizing c g with
  | nil => rfl
  | cons i first ih =>
    rw [List.cons_append, clean, clean, ih, Bool.and_assoc]
    rfl

end Monitor

/-- A global invariant, and what each thread may rely on of the steps of the others. -/
structure Contract (ι ℓ σ γ : Type) extends Monitor ι ℓ σ γ where
  inv : Shared ι σ γ → Prop
  rely : ι → Shared ι σ γ → Shared ι σ γ → Prop
  rely_refl : ∀ i x, rely i x x
  rely_trans : ∀ i x y z, rely i x y → rely i y z → rely i x z

namespace Contract

/-- A step of thread `i` that keeps the invariant and what the other threads rely on. -/
def Fair (C : Contract ι ℓ σ γ) (i : ι) (x y : Shared ι σ γ) : Prop :=
  C.inv y ∧ ∀ j, j ≠ i → C.rely j x y

end Contract

section Safe

variable [DecidableEq ι] (C : Contract ι ℓ σ γ)

/-- From `x` on, between steps that thread `i` relies on, every permitted access of the
program is fair, and the program returns in `Q`. -/
def Safe (i : ι) : Prog ℓ σ ε α → (α → Shared ι σ γ → Prop) → Shared ι σ γ → Prop
  | .ret a, Q, x => ∀ y, C.rely i x y → C.inv y → Q a y
  | .raise _, _, _ => True
  | .access l f k, Q, x => ∀ y, C.rely i x y → C.inv y → C.permits i l y.store y.ghost →
      C.Fair i y (C.after i l f y) ∧ Safe i (k y.store) Q (C.after i l f y)
  | .acquire k, Q, x => ∀ y, C.rely i x y → C.inv y → ∀ held, grab i y.lock = some held →
      C.Fair i y { y with lock := some held } ∧ Safe i k Q { y with lock := some held }
  | .release k, Q, x => ∀ y, C.rely i x y → C.inv y →
      C.Fair i y { y with lock := giveBack y.lock } ∧ Safe i k Q { y with lock := giveBack y.lock }

variable {C} {i : ι} {Q R : α → Shared ι σ γ → Prop} {x y : Shared ι σ γ}

variable {p : Prog ℓ σ ε α}

theorem Safe.stable (h : Safe C i p Q x) (hrely : C.rely i x y) : Safe C i p Q y := by
  cases p with
  | ret a => exact fun z hz => h z (C.rely_trans i x y z hrely hz)
  | raise e => trivial
  | access l f k | acquire k | release k => exact fun z hz => h z (C.rely_trans i x y z hrely hz)

theorem Safe.later (h : ∀ y, C.rely i x y → C.inv y → Safe C i p Q y) : Safe C i p Q x := by
  cases p with
  | ret a => exact fun y hy hinv => h y hy hinv y (C.rely_refl i y) hinv
  | raise e => trivial
  | access l f k => exact fun y hy hinv => h y hy hinv y (C.rely_refl i y) hinv
  | acquire k | release k => exact fun y hy hinv => h y hy hinv y (C.rely_refl i y) hinv

theorem Safe.bind {p : Prog ℓ σ ε β} {f : β → Prog ℓ σ ε α}
    (h : Safe C i p (fun b y => Safe C i (f b) Q y) x) : Safe C i (p.bind f) Q x := by
  induction p generalizing x with
  | ret b => exact Safe.later h
  | raise e => trivial
  | access l g k ih =>
    intro y hy hinv hpermit
    obtain ⟨hfair, hrest⟩ := h y hy hinv hpermit
    exact ⟨hfair, ih y.store hrest⟩
  | acquire k ih =>
    intro y hy hinv held hgrab
    obtain ⟨hfair, hrest⟩ := h y hy hinv held hgrab
    exact ⟨hfair, ih hrest⟩
  | release k ih =>
    intro y hy hinv
    obtain ⟨hfair, hrest⟩ := h y hy hinv
    exact ⟨hfair, ih hrest⟩

theorem Safe.mono (h : Safe C i p Q x) (hQR : ∀ a y, C.inv y → Q a y → R a y) : Safe C i p R x := by
  induction p generalizing x with
  | ret a => exact fun y hy hinv => hQR a y hinv (h y hy hinv)
  | raise e => trivial
  | access l g k ih =>
    intro y hy hinv hpermit
    obtain ⟨hfair, hrest⟩ := h y hy hinv hpermit
    exact ⟨hfair, ih y.store hrest⟩
  | acquire k ih =>
    intro y hy hinv held hgrab
    obtain ⟨hfair, hrest⟩ := h y hy hinv held hgrab
    exact ⟨hfair, ih hrest⟩
  | release k ih =>
    intro y hy hinv
    obtain ⟨hfair, hrest⟩ := h y hy hinv
    exact ⟨hfair, ih hrest⟩

theorem Safe.of_each {A : ℓ → (σ → σ) → Prop} {K : Shared ι σ γ → Prop}
    (haccess : ∀ l f, A l f → ∀ y, C.inv y → K y →
      C.Fair i y (C.after i l f y) ∧ K (C.after i l f y))
    (hlock : ∀ y lock, C.inv y → K y → C.Fair i y { y with lock := lock } ∧ K { y with lock := lock })
    (hrely : ∀ y z, K y → C.rely i y z → K z) (hp : p.Each A) (hx : K x) :
    Safe C i p (fun _ => K) x := by
  induction p generalizing x with
  | ret a => exact fun y hy _ => hrely x y hx hy
  | raise e => trivial
  | access l f k ih =>
    intro y hy hinv _
    obtain ⟨hfair, hK⟩ := haccess l f hp.1 y hinv (hrely x y hx hy)
    exact ⟨hfair, ih y.store (hp.2 y.store) hK⟩
  | acquire k ih =>
    intro y hy hinv held _
    obtain ⟨hfair, hK⟩ := hlock y (some held) hinv (hrely x y hx hy)
    exact ⟨hfair, ih hp hK⟩
  | release k ih =>
    intro y hy hinv
    obtain ⟨hfair, hK⟩ := hlock y (giveBack y.lock) hinv (hrely x y hx hy)
    exact ⟨hfair, ih hp hK⟩

theorem Safe.forEach {K : Shared ι σ γ → Prop} {xs : List β} {body : β → Prog ℓ σ ε Unit}
    (hrely : ∀ y z, K y → C.rely i y z → K z)
    (h : ∀ b ∈ xs, ∀ y, K y → Safe C i (body b) (fun _ => K) y) (hx : K x) :
    Safe C i (Prog.forEach xs body) (fun _ => K) x := by
  induction xs generalizing x with
  | nil => exact fun y hy _ => hrely x y hx hy
  | cons b xs ih =>
    refine Safe.bind ((h b List.mem_cons_self x hx).mono fun _ y _ hy => ?_)
    exact ih (fun b' hb' => h b' (List.mem_cons_of_mem b hb')) hy

variable {P : ι → α → Shared ι σ γ → Prop} {c : Config ι ℓ σ ε α} {g : γ}

/-- What the threads of a configuration share, beside the ghost `g`. -/
def Config.shared (c : Config ι ℓ σ ε α) (g : γ) : Shared ι σ γ := ⟨c.store, c.lock, g⟩

/-- The threads are safe again after thread `i` moved on to a safe rest `p` and the step
was fair to the others. -/
theorem safe_update (h : ∀ j, Safe C j (c.thread j) (P j) (c.shared g))
    {y : Shared ι σ γ} (hfair : C.Fair i (c.shared g) y) (hrest : Safe C i p (P i) y) (j : ι) :
    Safe C j (Function.update c.thread i p j) (P j) y := by
  by_cases hj : j = i
  · subst hj
    rw [Function.update_self]
    exact hrest
  · rw [Function.update_of_ne hj]
    exact (h j).stable (hfair.2 j hj)

theorem safe_step (i : ι) (h : ∀ j, Safe C j (c.thread j) (P j) (c.shared g))
    (hinv : C.inv (c.shared g)) (hpermit : C.permitted i c g = true) :
    (∀ j, Safe C j ((c.step i).thread j) (P j) ((c.step i).shared (C.watch i c g))) ∧
      C.inv ((c.step i).shared (C.watch i c g)) := by
  have hi := h i
  simp only [Monitor.permitted] at hpermit
  simp only [Config.step, Monitor.watch]
  cases hthread : c.thread i with
  | ret a | raise e => exact ⟨h, hinv⟩
  | access l f k =>
    rw [hthread] at hi hpermit
    obtain ⟨hfair, hrest⟩ := hi (c.shared g) (C.rely_refl i _) hinv hpermit
    exact ⟨safe_update h hfair hrest, hfair.1⟩
  | acquire k =>
    rw [hthread] at hi
    cases hgrab : grab i c.lock with
    | none => exact ⟨h, hinv⟩
    | some held =>
      obtain ⟨hfair, hrest⟩ := hi (c.shared g) (C.rely_refl i _) hinv held hgrab
      exact ⟨safe_update h hfair hrest, hfair.1⟩
  | release k =>
    rw [hthread] at hi
    obtain ⟨hfair, hrest⟩ := hi (c.shared g) (C.rely_refl i _) hinv
    exact ⟨safe_update h hfair hrest, hfair.1⟩

theorem safe_run (schedule : List ι) (h : ∀ j, Safe C j (c.thread j) (P j) (c.shared g))
    (hinv : C.inv (c.shared g)) (hclean : C.clean schedule c g = true) :
    (∀ j, Safe C j ((c.run schedule).thread j) (P j)
      ((c.run schedule).shared (C.ghostAt schedule c g))) ∧
      C.inv ((c.run schedule).shared (C.ghostAt schedule c g)) := by
  induction schedule generalizing c g with
  | nil => exact ⟨h, hinv⟩
  | cons i schedule ih =>
    simp only [Monitor.clean, Bool.and_eq_true] at hclean
    obtain ⟨hsafe, hinv'⟩ := safe_step i h hinv hclean.1
    exact ih hsafe hinv' hclean.2

theorem safe_returned (h : Safe C i (c.thread i) Q (c.shared g))
    (hinv : C.inv (c.shared g)) (hreturned : c.returned i = true) :
    ∃ a, Q a (c.shared g) := by
  unfold Config.returned at hreturned
  cases hthread : c.thread i with
  | ret a =>
    rw [hthread] at h
    exact ⟨a, h (c.shared g) (C.rely_refl i _) hinv⟩
  | raise e | access l f k | acquire k | release k => simp [hthread] at hreturned

end Safe

end ClaudeCodeBridge.Program
