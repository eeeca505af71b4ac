import ClaudeCodeBridge.Program.JsonText

/-!
# Digits as code points

The decimal digits of a number as a text, and the number that the digits of a text stand for.
-/

set_option autoImplicit false

namespace ClaudeCodeBridge.Program

/-- The digits of a number. -/
def digitsOf (n : ℕ) : Text := (Nat.toDigits 10 n).map fun c => Fin.ofNat 0x110000 c.toNat

theorem digit_toNat {c : Char} (h : c.isDigit = true) : 48 ≤ c.toNat ∧ c.toNat ≤ 57 := by
  unfold Char.isDigit at h
  simp only [Bool.and_eq_true, decide_eq_true_iff, ge_iff_le, UInt32.le_iff_toNat_le] at h
  exact h

theorem point_val {n : ℕ} (h : n ≤ 57) : (Fin.ofNat 0x110000 n).val = n :=
  Nat.mod_eq_of_lt (by omega)

theorem head_toDigits {n : ℕ} (h : 0 < n) : (Nat.toDigits 10 n).head? ≠ some '0' := by
  induction n using Nat.strong_induction_on with
  | _ n ih =>
    rw [Nat.toDigits_eq_if (by omega)]
    by_cases hlt : n < 10
    · rw [if_pos hlt]
      rw [List.head?_cons, ne_eq, Option.some_inj]
      interval_cases n <;> decide
    · rw [if_neg hlt, List.head?_append_of_ne_nil _ Nat.toDigits_ne_nil]
      exact ih (n / 10) (by omega) (by omega)

/-- The number that digits stand for. -/
def digitsValue (digits : Text) : ℕ := digits.foldl (fun n c => 10 * n + (c.val - 48)) 0

theorem digitsOf_ne_nil (n : ℕ) : digitsOf n ≠ [] := by
  unfold digitsOf
  simp [Nat.toDigits_ne_nil]

theorem digit_of_mem_digitsOf {n : ℕ} {c : Fin 0x110000} (h : c ∈ digitsOf n) :
    48 ≤ c.val ∧ c.val ≤ 57 := by
  obtain ⟨d, hd, rfl⟩ := List.mem_map.mp h
  have hdigit := digit_toNat (Nat.isDigit_of_mem_toDigits (by omega) (by omega) hd)
  rw [point_val hdigit.2]
  exact hdigit

theorem head_digitsOf {n : ℕ} (h : 0 < n) : ∃ c digits, digitsOf n = c :: digits ∧ c.val ≠ 48 := by
  cases hdigits : Nat.toDigits 10 n with
  | nil => exact absurd hdigits Nat.toDigits_ne_nil
  | cons c digits =>
    have hmem : c ∈ Nat.toDigits 10 n := hdigits ▸ List.mem_cons_self
    have hc := digit_toNat (Nat.isDigit_of_mem_toDigits (by omega) (by omega) hmem)
    refine ⟨Fin.ofNat 0x110000 c.toNat, digits.map fun c => Fin.ofNat 0x110000 c.toNat, ?_, ?_⟩
    · unfold digitsOf
      rw [hdigits, List.map_cons]
    · rw [point_val hc.2]
      intro hzero
      apply head_toDigits h
      rw [hdigits, List.head?_cons, Option.some_inj]
      exact Char.toNat_inj.mp hzero

theorem digitsValue_digitsOf (n : ℕ) : digitsValue (digitsOf n) = n := by
  have hvalue : ∀ (digits : List Char) (m : ℕ), (∀ c ∈ digits, c.isDigit = true) →
      (digits.map fun c => Fin.ofNat 0x110000 c.toNat).foldl (fun n c => 10 * n + (c.val - 48)) m =
        Nat.ofDigitChars 10 digits m := by
    intro digits
    induction digits with
    | nil => intro m _; rfl
    | cons c digits ih =>
      intro m hdigits
      have hc := digit_toNat (hdigits c List.mem_cons_self)
      rw [List.map_cons, List.foldl_cons, Nat.ofDigitChars_cons,
        ih _ fun d hd => hdigits d (List.mem_cons_of_mem c hd), point_val hc.2]
      rfl
  unfold digitsValue digitsOf
  rw [hvalue _ _ fun c hc => Nat.isDigit_of_mem_toDigits (by omega) (by omega) hc]
  exact Nat.ofDigitChars_ten_toDigits

end ClaudeCodeBridge.Program
