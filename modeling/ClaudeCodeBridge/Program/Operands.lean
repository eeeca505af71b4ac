import Mathlib.Data.List.Basic
import Mathlib.Order.Nat
import ClaudeCodeBridge.Program.Outcomes

/-!
# Chains of operands

A rule of a recursive-descent parser reads a value from the front of a list of tokens.  A chain
reads one operand, and another one after each separator; the operands are combined from the left
(`operands`).  Its loop is bounded by the number of tokens, which never stops it where every
operand takes a token (`moreOperands_turns`), so that the chain can be followed operand by operand
(`chain_separator`, `chain_end`).
-/

set_option autoImplicit false

namespace ClaudeCodeBridge.Program

variable {τ ν ε : Type}

/-- What a rule reads, and the tokens after it. -/
abbrev Rule (τ ν ε : Type) := List τ → Except ε (ν × List τ)

namespace Rule

/-- Whatever the rule reads takes at least one token. -/
def Consumes (rule : Rule τ ν ε) : Prop :=
  ∀ (tokens : List τ) (value : ν) (rest : List τ),
    rule tokens = .ok (value, rest) → rest.length < tokens.length

/-- Whatever the rule reads has a property. -/
def Yields (P : ν → Prop) (rule : Rule τ ν ε) : Prop :=
  ∀ (tokens : List τ) (value : ν) (rest : List τ), rule tokens = .ok (value, rest) → P value

end Rule

variable [DecidableEq τ] (stuck : ε) (separator : τ) (combine : ν → ν → ν) (operand : Rule τ ν ε)

/-- The loop of a chain: while the next token is the separator, another operand is read. -/
def moreOperands : ℕ → ν → Rule τ ν ε
  | _, value, [] => .ok (value, [])
  | 0, value, token :: rest =>
    if token = separator then .error stuck else .ok (value, token :: rest)
  | turns + 1, value, token :: rest =>
    if token = separator then do
      let (next, rest) ← operand rest
      moreOperands turns (combine value next) rest
    else .ok (value, token :: rest)

/-- The rest of a chain, after some operands. -/
def chain (value : ν) : Rule τ ν ε := fun tokens =>
  moreOperands stuck separator combine operand tokens.length value tokens

/-- An operand, and another one after each separator. -/
def operands : Rule τ ν ε := fun tokens => do
  let (value, rest) ← operand tokens
  chain stuck separator combine operand value rest

variable {stuck separator combine operand}

theorem moreOperands_end {token : τ} (h : token ≠ separator) (turns : ℕ) (value : ν)
    (rest : List τ) :
    moreOperands stuck separator combine operand turns value (token :: rest) =
      .ok (value, token :: rest) := by
  cases turns <;> rw [moreOperands, if_neg h]

theorem moreOperands_nil (turns : ℕ) (value : ν) :
    moreOperands stuck separator combine operand turns value [] = .ok (value, []) := by
  cases turns <;> rfl

theorem moreOperands_separator (turns : ℕ) (value : ν) (rest : List τ) :
    moreOperands stuck separator combine operand (turns + 1) value (separator :: rest) =
      (operand rest).bind fun next =>
        moreOperands stuck separator combine operand turns (combine value next.1) next.2 := by
  rw [moreOperands, if_pos rfl]
  rfl

variable {tokens : List τ}

/-- More turns than tokens make no difference. -/
theorem moreOperands_turns (hoperand : operand.Consumes) {turns : ℕ} (value : ν)
    (h : tokens.length ≤ turns) :
    moreOperands stuck separator combine operand turns value tokens =
      chain stuck separator combine operand value tokens := by
  unfold chain
  induction turns using Nat.strong_induction_on generalizing value tokens with
  | _ turns ih =>
    cases tokens with
    | nil => rw [moreOperands_nil, moreOperands_nil]
    | cons token rest =>
      by_cases htoken : token = separator
      · subst htoken
        obtain ⟨turns, rfl⟩ : ∃ fewer, turns = fewer + 1 := ⟨turns - 1, by
          rw [List.length_cons] at h
          omega⟩
        rw [List.length_cons] at h ⊢
        rw [moreOperands_separator, moreOperands_separator]
        cases hnext : operand rest with
        | error error => rfl
        | ok next =>
          have hlength := hoperand _ next.1 next.2 hnext
          change moreOperands stuck token combine operand turns (combine value next.1) next.2 =
            moreOperands stuck token combine operand rest.length (combine value next.1) next.2
          rw [ih turns (by omega) (combine value next.1) (by omega)]
          by_cases hturns : rest.length = turns
          · rw [hturns, ih turns (by omega) (combine value next.1) (by omega)]
          · rw [ih rest.length (by omega) (combine value next.1) (by omega)]
      · rw [moreOperands_end htoken, moreOperands_end htoken]

theorem chain_separator (hoperand : operand.Consumes) (value : ν) (rest : List τ) :
    chain stuck separator combine operand value (separator :: rest) =
      (operand rest).bind fun next =>
        chain stuck separator combine operand (combine value next.1) next.2 := by
  unfold chain
  rw [List.length_cons, moreOperands_separator]
  cases hnext : operand rest with
  | error error => rfl
  | ok next =>
    have hlength := hoperand _ next.1 next.2 hnext
    exact moreOperands_turns hoperand _ (by omega)

theorem chain_end (value : ν) (h : tokens.head? ≠ some separator) :
    chain stuck separator combine operand value tokens = .ok (value, tokens) := by
  unfold chain
  cases tokens with
  | nil => exact moreOperands_nil _ value
  | cons token rest =>
    exact moreOperands_end (fun heq => h (by rw [List.head?_cons, heq])) _ value rest

theorem moreOperands_cases {turns : ℕ} {value : ν} {result : ν × List τ}
    (h : moreOperands stuck separator combine operand turns value tokens = .ok result) :
    result = (value, tokens) ∨
      ∃ fewer rest next, turns = fewer + 1 ∧ tokens = separator :: rest ∧
        operand rest = .ok next ∧
        moreOperands stuck separator combine operand fewer (combine value next.1) next.2 =
          .ok result := by
  cases tokens with
  | nil =>
    rw [moreOperands_nil, Except.ok.injEq] at h
    exact Or.inl h.symm
  | cons token rest =>
    by_cases htoken : token = separator
    · subst htoken
      cases turns with
      | zero =>
        rw [moreOperands, if_pos rfl] at h
        cases h
      | succ turns =>
        rw [moreOperands, if_pos rfl] at h
        obtain ⟨next, hnext, hrest⟩ := bind_ok.mp h
        exact Or.inr ⟨turns, rest, next, rfl, rfl, hnext, hrest⟩
    · rw [moreOperands_end htoken, Except.ok.injEq] at h
      exact Or.inl h.symm

theorem moreOperands_length_le (hoperand : operand.Consumes) {turns : ℕ} {value : ν}
    {result : ν × List τ}
    (h : moreOperands stuck separator combine operand turns value tokens = .ok result) :
    result.2.length ≤ tokens.length := by
  induction turns generalizing value tokens with
  | zero =>
    obtain rfl | ⟨fewer, _, _, hturns, _⟩ := moreOperands_cases h
    · exact le_rfl
    · omega
  | succ turns ih =>
    obtain rfl | ⟨fewer, rest, next, hturns, rfl, hnext, hmore⟩ := moreOperands_cases h
    · exact le_rfl
    · obtain rfl : turns = fewer := by omega
      have hlength := hoperand _ next.1 next.2 hnext
      have hle := ih hmore
      rw [List.length_cons]
      omega

theorem Rule.Consumes.operands (hoperand : operand.Consumes) :
    (operands stuck separator combine operand).Consumes := by
  intro tokens value rest h
  obtain ⟨first, hfirst, hmore⟩ := bind_ok.mp h
  have hlength := hoperand _ first.1 first.2 hfirst
  have hle := moreOperands_length_le hoperand hmore
  exact lt_of_le_of_lt hle hlength

theorem moreOperands_yields {P : ν → Prop} (hoperand : operand.Yields P)
    (hcombine : ∀ left right, P left → P right → P (combine left right)) {turns : ℕ} {value : ν}
    {result : ν × List τ} (hvalue : P value)
    (h : moreOperands stuck separator combine operand turns value tokens = .ok result) :
    P result.1 := by
  induction turns generalizing value tokens with
  | zero =>
    obtain rfl | ⟨fewer, _, _, hturns, _⟩ := moreOperands_cases h
    · exact hvalue
    · omega
  | succ turns ih =>
    obtain rfl | ⟨fewer, rest, next, hturns, rfl, hnext, hmore⟩ := moreOperands_cases h
    · exact hvalue
    · obtain rfl : turns = fewer := by omega
      exact ih (hcombine value next.1 hvalue (hoperand _ _ next.2 hnext)) hmore

theorem Rule.Yields.operands {P : ν → Prop} (hoperand : operand.Yields P)
    (hcombine : ∀ left right, P left → P right → P (combine left right)) :
    (operands stuck separator combine operand).Yields P := by
  intro tokens value rest h
  obtain ⟨first, hfirst, hmore⟩ := bind_ok.mp h
  exact moreOperands_yields hoperand hcombine (hoperand _ _ first.2 hfirst) hmore

end ClaudeCodeBridge.Program
