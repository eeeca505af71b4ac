import Mathlib.Tactic.Common

/-!
# Fallible functions

Checks that raise, and how a successful outcome is taken apart: of a `do` block that
succeeds every step succeeds (`bind_ok`), and of a check that passes the condition does
not hold (`refuseIf_ok`).
-/

set_option autoImplicit false

namespace ClaudeCodeBridge.Program

variable {ε α β : Type}

/-- `if c: raise e`. -/
def refuseIf (c : Prop) [Decidable c] (e : ε) : Except ε Unit :=
  if c then .error e else .ok ()

/-- `if value is None: raise e`. -/
def valueOr (value : Option α) (e : ε) : Except ε α :=
  match value with
  | none => .error e
  | some a => .ok a

@[simp] theorem bind_ok {x : Except ε α} {f : α → Except ε β} {b : β} :
    x >>= f = .ok b ↔ ∃ a, x = .ok a ∧ f a = .ok b := by
  cases x with
  | error e | ok a => simp [bind, Except.bind]

@[simp] theorem pure_ok {a b : α} : (pure a : Except ε α) = .ok b ↔ a = b := by
  simp [pure, Except.pure]

@[simp] theorem throw_ok {e : ε} {a : α} : (throw e : Except ε α) = .ok a ↔ False := by
  simp [throw, throwThe, MonadExceptOf.throw]

@[simp] theorem refuseIf_ok {c : Prop} [Decidable c] {e : ε} {u : Unit} :
    refuseIf c e = .ok u ↔ ¬ c := by
  unfold refuseIf
  split
  · rename_i h
    simp [h]
  · rename_i h
    simp [h]

@[simp] theorem valueOr_ok {value : Option α} {e : ε} {a : α} :
    valueOr value e = .ok a ↔ value = some a := by
  cases value with
  | none => simp [valueOr]
  | some b => simp [valueOr]

end ClaudeCodeBridge.Program
