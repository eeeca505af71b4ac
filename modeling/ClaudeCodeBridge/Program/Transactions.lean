import Mathlib.Tactic.Common

/-!
# Transactions

The statements of a transaction change a working copy of the store as they are executed, and may
raise.  `transaction` commits the working copy of statements that end, and rolls back that of
statements that raise: then all they have written is lost, what they wrote on purpose before they
raised included.
-/

set_option autoImplicit false

namespace ClaudeCodeBridge.Program

variable {ε σ α β : Type}

/-- Statements: what they give or raise, and the working copy they leave. -/
def Statements (ε σ α : Type) : Type := σ → Except ε α × σ

namespace Statements

def done (a : α) : Statements ε σ α := fun s => (.ok a, s)

def raise (e : ε) : Statements ε σ α := fun s => (.error e, s)

def andThen (first : Statements ε σ α) (next : α → Statements ε σ β) : Statements ε σ β := fun s =>
  match first s with
  | (.ok a, s') => next a s'
  | (.error e, s') => (.error e, s')

instance statementsMonad : Monad (Statements ε σ) where
  pure := done
  bind := andThen

/-- What a query selects. -/
def select (query : σ → α) : Statements ε σ α := fun s => (.ok (query s), s)

def write (update : σ → σ) : Statements ε σ Unit := fun s => (.ok (), update s)

/-- A check that does not touch the store. -/
def check (outcome : Except ε α) : Statements ε σ α := fun s => (outcome, s)

variable {first : Statements ε σ α} {next : α → Statements ε σ β} {s s' : σ} {a : α} {e : ε}

theorem bind_of_ok (h : first s = (.ok a, s')) : (first >>= next) s = next a s' := by
  show andThen first next s = next a s'
  unfold andThen
  rw [h]

theorem bind_of_error (h : first s = (.error e, s')) : (first >>= next) s = (.error e, s') := by
  show andThen first next s = (.error e, s')
  unfold andThen
  rw [h]

theorem bind_check {outcome : Except ε α} (h : outcome = .ok a) :
    (check outcome >>= next) s = next a s := by
  rw [h]
  exact bind_of_ok rfl

end Statements

/-- Execute statements, and commit or roll back what they have written. -/
def transaction (body : Statements ε σ α) : Statements ε σ α := fun s =>
  match body s with
  | (.ok a, s') => (.ok a, s')
  | (.error e, _) => (.error e, s)

section

variable {body : Statements ε σ α} {s s' : σ} {a : α} {e : ε}

theorem transaction_error (h : body s = (.error e, s')) : transaction body s = (.error e, s) := by
  unfold transaction
  rw [h]

theorem rolled_back (h : (transaction body s).1 = .error e) : (transaction body s).2 = s := by
  unfold transaction at h ⊢
  cases hbody : body s with
  | mk outcome s' =>
    cases outcome with
    | ok a =>
      rw [hbody] at h
      cases h
    | error e => rfl

end

end ClaudeCodeBridge.Program
