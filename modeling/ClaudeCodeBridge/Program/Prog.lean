import Mathlib.Tactic.Common

/-!
# Programs over a shared store

A program is the tree of its atomic accesses to a store `σ`: each access reads the
store, replaces it, and goes on with what it read.  The tree is the whole of what
the three semantics of this directory need: a sequential run (`Prog.run`, here), a
process that may stop after any number of accesses (`Program.Stops`), and threads
whose accesses interleave (`Program.Threads`).  One translation of a source function
therefore serves the sequential, the crash and the concurrent reading of it.  The label
`ℓ` of an access names it for whoever speaks about the order of accesses; no run depends
on it.

`acquire` and `release` stand for the one re-entrant lock a program may take; the
sequential run ignores them, a thread schedule does not.
-/

set_option autoImplicit false

namespace ClaudeCodeBridge.Program

/-- A program over the store `σ` that may fail with `ε` and otherwise returns `α`. -/
inductive Prog (ℓ σ ε α : Type) : Type where
  | ret (a : α)
  | raise (e : ε)
  | access (l : ℓ) (f : σ → σ) (k : σ → Prog ℓ σ ε α)
  | acquire (k : Prog ℓ σ ε α)
  | release (k : Prog ℓ σ ε α)

namespace Prog

variable {ℓ σ τ ε α β γ : Type}

/-- Sequential composition: `f` continues at every `ret` of `p`. -/
def bind : Prog ℓ σ ε α → (α → Prog ℓ σ ε β) → Prog ℓ σ ε β
  | ret a, f => f a
  | raise e, _ => raise e
  | access l g k, f => access l g fun s => (k s).bind f
  | acquire k, f => acquire (k.bind f)
  | release k, f => release (k.bind f)

instance : Monad (Prog ℓ σ ε) where
  pure := ret
  bind := bind

/-- Read one fact of the store: a single atomic access that changes nothing. -/
def read (l : ℓ) (g : σ → α) : Prog ℓ σ ε α := access l id fun s => ret (g s)

/-- Replace the store by `f` of it: a single atomic access. -/
def write (l : ℓ) (f : σ → σ) : Prog ℓ σ ε Unit := access l f fun _ => ret ()

/-- Read one fact of the store and replace the store, in a single atomic access. -/
def update (l : ℓ) (g : σ → α) (f : σ → σ) : Prog ℓ σ ε α :=
  access l f fun s => ret (g s)

/-- `try p except e: h e`. -/
def tryCatch : Prog ℓ σ ε α → (ε → Prog ℓ σ ε α) → Prog ℓ σ ε α
  | ret a, _ => ret a
  | raise e, h => h e
  | access l g k, h => access l g fun s => (k s).tryCatch h
  | acquire k, h => acquire (k.tryCatch h)
  | release k, h => release (k.tryCatch h)

/-- `with lock: p`: the lock is given back on both ways out of `p`. -/
def withLock (p : Prog ℓ σ ε α) : Prog ℓ σ ε α :=
  acquire (close p)
where
  close : Prog ℓ σ ε α → Prog ℓ σ ε α
    | ret a => release (ret a)
    | raise e => release (raise e)
    | access l g k => access l g fun s => close (k s)
    | acquire k => acquire (close k)
    | release k => release (close k)

/-- `with lock: p` for a lock that the labels `enter` and `leave` name. -/
def within (enter leave : ℓ) (p : Prog ℓ σ ε α) : Prog ℓ σ ε α :=
  access enter id fun _ => close p
where
  close : Prog ℓ σ ε α → Prog ℓ σ ε α
    | ret a => access leave id fun _ => ret a
    | raise e => access leave id fun _ => raise e
    | access l g k => access l g fun s => close (k s)
    | acquire k => acquire (close k)
    | release k => release (close k)

/-- What is known without the store: a value or a failure. -/
def ofExcept : Except ε α → Prog ℓ σ ε α
  | .ok a => ret a
  | .error e => raise e

/-- Read a part of the store in which something may be wrong. -/
def inspect (l : ℓ) (g : σ → Except ε α) : Prog ℓ σ ε α := access l id fun s => ofExcept (g s)

/-- Replace the store by what `g` makes of it, unless it refuses. -/
def attempt (l : ℓ) (g : σ → Except ε σ) : Prog ℓ σ ε Unit :=
  access l (fun s => (g s).toOption.getD s) fun s => ofExcept ((g s).map fun _ => ())

/-- `for x in xs: body x`. -/
def forEach (xs : List β) (body : β → Prog ℓ σ ε Unit) : Prog ℓ σ ε Unit :=
  match xs with
  | [] => pure ()
  | x :: xs => do
    body x
    forEach xs body

/-- Run a program over a part `τ` of the store. -/
def zoom {κ : Type} (name : κ → ℓ) (get : σ → τ) (set : τ → σ → σ) : Prog κ τ ε α → Prog ℓ σ ε α
  | ret a => ret a
  | raise e => raise e
  | access l g k =>
    access (name l) (fun s => set (g (get s)) s) fun s => zoom name get set (k (get s))
  | acquire k => acquire (zoom name get set k)
  | release k => release (zoom name get set k)

@[simp] theorem pure_eq (a : α) : (pure a : Prog ℓ σ ε α) = ret a := rfl

@[simp] theorem bind_eq (p : Prog ℓ σ ε α) (f : α → Prog ℓ σ ε β) : p >>= f = p.bind f := rfl

@[simp] theorem ret_bind (a : α) (f : α → Prog ℓ σ ε β) : (ret a).bind f = f a := rfl

@[simp] theorem raise_bind (e : ε) (f : α → Prog ℓ σ ε β) : (raise e).bind f = raise e := rfl

@[simp] theorem read_bind (l : ℓ) (g : σ → α) (f : α → Prog ℓ σ ε β) :
    (read l g).bind f = access l id fun s => f (g s) := rfl

@[simp] theorem write_bind (l : ℓ) (g : σ → σ) (f : Unit → Prog ℓ σ ε β) :
    (write l g).bind f = access l g fun _ => f () := rfl

@[simp] theorem access_bind (l : ℓ) (g : σ → σ) (k : σ → Prog ℓ σ ε α) (f : α → Prog ℓ σ ε β) :
    (access l g k).bind f = access l g fun s => (k s).bind f := rfl

@[simp] theorem ofExcept_ok (a : α) : (ofExcept (.ok a) : Prog ℓ σ ε α) = ret a := rfl

theorem bind_assoc (p : Prog ℓ σ ε α) (f : α → Prog ℓ σ ε β) (g : β → Prog ℓ σ ε γ) :
    (p.bind f).bind g = p.bind fun a => (f a).bind g := by
  induction p with
  | ret a => rfl
  | raise e => rfl
  | access l h k ih =>
    simp only [bind]
    congr
    funext s
    exact ih s
  | acquire k ih | release k ih => simp only [bind, ih]

theorem zoom_bind {κ : Type} (name : κ → ℓ) (get : σ → τ) (set : τ → σ → σ)
    (p : Prog κ τ ε α) (f : α → Prog κ τ ε β) :
    zoom name get set (p.bind f) = (zoom name get set p).bind fun a => zoom name get set (f a) := by
  induction p with
  | ret a => rfl
  | raise e => rfl
  | access l g k ih =>
    simp only [bind, zoom]
    congr
    funext s
    exact ih (get s)
  | acquire k ih | release k ih => simp only [bind, zoom, ih]

/-- What a program does when nothing else touches the store. -/
def run : Prog ℓ σ ε α → σ → Except ε α × σ
  | ret a, s => (.ok a, s)
  | raise e, s => (.error e, s)
  | access _ f k, s => run (k s) (f s)
  | acquire k, s => run k s
  | release k, s => run k s

@[simp] theorem run_ret (a : α) (s : σ) : (ret a : Prog ℓ σ ε α).run s = (.ok a, s) := rfl

@[simp] theorem run_raise (e : ε) (s : σ) : (raise e : Prog ℓ σ ε α).run s = (.error e, s) := rfl

@[simp] theorem run_access (l : ℓ) (f : σ → σ) (k : σ → Prog ℓ σ ε α) (s : σ) :
    (access l f k).run s = (k s).run (f s) := rfl

@[simp] theorem run_read (l : ℓ) (g : σ → α) (s : σ) :
    (read l g : Prog ℓ σ ε α).run s = (.ok (g s), s) := rfl

@[simp] theorem run_write (l : ℓ) (f : σ → σ) (s : σ) :
    (write l f : Prog ℓ σ ε Unit).run s = (.ok (), f s) := rfl

theorem run_bind (p : Prog ℓ σ ε α) (f : α → Prog ℓ σ ε β) (s : σ) :
    (p.bind f).run s =
      match p.run s with
      | (.ok a, s') => (f a).run s'
      | (.error e, s') => (.error e, s') := by
  induction p generalizing s with
  | ret a => rfl
  | raise e => rfl
  | access l g k ih => exact ih s (g s)
  | acquire k ih => exact ih s
  | release k ih => exact ih s

theorem run_bind_ok {p : Prog ℓ σ ε α} {f : α → Prog ℓ σ ε β} {s s' : σ} {a : α}
    (h : p.run s = (.ok a, s')) : (p.bind f).run s = (f a).run s' := by
  rw [run_bind, h]

@[simp] theorem run_withLock (p : Prog ℓ σ ε α) (s : σ) : (withLock p).run s = p.run s := by
  show (withLock.close p).run s = p.run s
  induction p generalizing s with
  | ret a => rfl
  | raise e => rfl
  | access l g k ih => exact ih s (g s)
  | acquire k ih => exact ih s
  | release k ih => exact ih s

@[simp] theorem run_within (enter leave : ℓ) (p : Prog ℓ σ ε α) (s : σ) :
    (within enter leave p).run s = p.run s := by
  show (within.close leave p).run s = p.run s
  induction p generalizing s with
  | ret a => rfl
  | raise e => rfl
  | access l g k ih => exact ih s (g s)
  | acquire k ih => exact ih s
  | release k ih => exact ih s

@[simp] theorem run_ofExcept (x : Except ε α) (s : σ) :
    (ofExcept x : Prog ℓ σ ε α).run s = (x, s) := by
  cases x with
  | error e => rfl
  | ok a => rfl

@[simp] theorem run_inspect (l : ℓ) (g : σ → Except ε α) (s : σ) :
    (inspect l g).run s = (g s, s) := run_ofExcept (g s) s

theorem run_zoom {κ : Type} {name : κ → ℓ} {get : σ → τ} {set : τ → σ → σ}
    (get_set : ∀ t s, get (set t s) = t) (set_set : ∀ t u s, set t (set u s) = set t s)
    (set_get : ∀ s, set (get s) s = s) (p : Prog κ τ ε α) (s : σ) :
    (zoom name get set p).run s = ((p.run (get s)).1, set (p.run (get s)).2 s) := by
  induction p generalizing s with
  | ret a | raise e => simp [zoom, run, set_get]
  | access l g k ih =>
    simp only [zoom, run]
    rw [ih, get_set, set_set]
  | acquire k ih => exact ih s
  | release k ih => exact ih s

/-- A run of `p` that starts in `I` ends in `I`, whether it returns or fails. -/
def Keeps (I : σ → Prop) (p : Prog ℓ σ ε α) : Prop := ∀ s, I s → I (p.run s).2

variable {I : σ → Prop}

theorem Keeps.bind {p : Prog ℓ σ ε α} {f : α → Prog ℓ σ ε β}
    (hp : Keeps I p) (hf : ∀ a, Keeps I (f a)) : Keeps I (p.bind f) := by
  intro s hs
  have hfirst := hp s hs
  rw [run_bind]
  rcases hrun : p.run s with ⟨_ | a, s'⟩
  · rw [hrun] at hfirst
    exact hfirst
  · rw [hrun] at hfirst
    exact hf a s' hfirst

theorem keeps_ret (a : α) : Keeps I (ret a : Prog ℓ σ ε α) := fun _ hs => hs

theorem keeps_raise (e : ε) : Keeps I (raise e : Prog ℓ σ ε α) := fun _ hs => hs

theorem keeps_read (l : ℓ) (g : σ → α) : Keeps I (read l g : Prog ℓ σ ε α) := fun _ hs => hs

theorem Keeps.forEach {xs : List β} {body : β → Prog ℓ σ ε Unit}
    (h : ∀ x ∈ xs, Keeps I (body x)) : Keeps I (forEach xs body) := by
  induction xs with
  | nil => exact keeps_ret ()
  | cons x xs ih =>
    refine Keeps.bind (h x List.mem_cons_self) fun _ => ih fun y hy => ?_
    exact h y (List.mem_cons_of_mem x hy)

end Prog

end ClaudeCodeBridge.Program
