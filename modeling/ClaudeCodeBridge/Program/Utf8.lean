import ClaudeCodeBridge.Program.JsonText
import ClaudeCodeBridge.Program.TextLines

/-!
# UTF-8

The strict decoder of UTF-8, a byte at a time: what has been read of a character that is not
complete is `Pending`, with the bounds of the byte that may come next.  No byte of a character of
several bytes is an ASCII byte, so that a text can be cut at its ASCII characters before or after
it is decoded (`utf8Decode_append`), and the runs of the text are those of its bytes
(`forall₂_runs`).
-/

set_option autoImplicit false

namespace ClaudeCodeBridge.Program

/-- The beginning of a character: what its bytes say so far, the number of bytes after the next
one, and the bounds of the next one.  The character is neither ASCII nor out of range. -/
structure Pending where
  value : ℕ
  more : ℕ
  low : ℕ
  high : ℕ
  continues : 0x80 ≤ low
  floor : 0x80 ≤ (value * 64 + (low - 0x80)) * 64 ^ more
  ceiling : (value * 64 + (high - 0x80) + 1) * 64 ^ more ≤ 0x110000

/-- The first byte of a character that is not ASCII. -/
def leadByte (n : ℕ) : Option Pending :=
  if h : 0xC2 ≤ n ∧ n < 0xE0 then some ⟨n - 0xC0, 0, 0x80, 0xBF, by omega, by omega, by omega⟩
  else if n = 0xE0 then some ⟨0, 1, 0xA0, 0xBF, by omega, by omega, by omega⟩
  else if n = 0xED then some ⟨0xD, 1, 0x80, 0x9F, by omega, by omega, by omega⟩
  else if h : 0xE1 ≤ n ∧ n < 0xF0 then
    some ⟨n - 0xE0, 1, 0x80, 0xBF, by omega, by omega, by omega⟩
  else if n = 0xF0 then some ⟨0, 2, 0x90, 0xBF, by omega, by omega, by omega⟩
  else if h : 0xF1 ≤ n ∧ n < 0xF4 then
    some ⟨n - 0xF0, 2, 0x80, 0xBF, by omega, by omega, by omega⟩
  else if n = 0xF4 then some ⟨4, 2, 0x80, 0x8F, by omega, by omega, by omega⟩
  else none

/-- What the character says with its next byte. -/
def Pending.next (pending : Pending) (n : ℕ) : ℕ := pending.value * 64 + (n - 0x80)

theorem Pending.next_le (pending : Pending) {n : ℕ} (h : n ≤ pending.high) :
    (pending.next n + 1) * 64 ^ pending.more ≤ 0x110000 := by
  refine le_trans (Nat.mul_le_mul_right _ ?_) pending.ceiling
  unfold Pending.next
  omega

theorem Pending.le_next (pending : Pending) {n : ℕ} (h : pending.low ≤ n) :
    0x80 ≤ pending.next n * 64 ^ pending.more := by
  refine le_trans pending.floor (Nat.mul_le_mul_right _ ?_)
  unfold Pending.next
  omega

/-- A character that has more bytes, after its next one. -/
def Pending.go (pending : Pending) (n more : ℕ) (hmore : pending.more = more + 1)
    (h : pending.low ≤ n ∧ n ≤ pending.high) : Pending where
  value := pending.next n
  more := more
  low := 0x80
  high := 0xBF
  continues := le_refl _
  floor := by
    have hle := pending.le_next h.1
    rw [hmore, pow_succ, mul_comm (64 ^ more), ← mul_assoc] at hle
    have hsame : pending.next n * 64 + (0x80 - 0x80) = pending.next n * 64 := by omega
    rw [hsame]
    exact hle
  ceiling := by
    have hle := pending.next_le h.2
    rw [hmore, pow_succ, mul_comm (64 ^ more), ← mul_assoc] at hle
    have hsame : pending.next n * 64 + (0xBF - 0x80) + 1 = (pending.next n + 1) * 64 := by omega
    rw [hsame]
    exact hle

/-- Decode bytes that begin within a character. -/
def utf8DecodeFrom : Option Pending → Bytes → Option Text
  | none, [] => some []
  | some _, [] => none
  | none, b :: rest =>
    if b.toNat < 0x80 then
      (utf8DecodeFrom none rest).map fun text => Fin.ofNat 0x110000 b.toNat :: text
    else (leadByte b.toNat).bind fun pending => utf8DecodeFrom (some pending) rest
  | some pending, b :: rest =>
    if h : pending.low ≤ b.toNat ∧ b.toNat ≤ pending.high then
      match hmore : pending.more with
      | 0 => (utf8DecodeFrom none rest).map fun text =>
          Fin.ofNat 0x110000 (pending.next b.toNat) :: text
      | more + 1 => utf8DecodeFrom (some (pending.go b.toNat more hmore h)) rest
    else none

/-- `bytes.decode('utf-8')`. -/
def utf8Decode (bytes : Bytes) : Option Text := utf8DecodeFrom none bytes

theorem utf8Decode_nil : utf8Decode [] = some [] := rfl

/-- Bytes are decoded on the two sides of an ASCII byte. -/
theorem utf8DecodeFrom_append {b : UInt8} (hb : b.toNat < 0x80) (pending : Option Pending)
    (xs ys : Bytes) :
    utf8DecodeFrom pending (xs ++ b :: ys) =
      (utf8DecodeFrom pending xs).bind fun x =>
        (utf8Decode ys).map fun y => x ++ Fin.ofNat 0x110000 b.toNat :: y := by
  induction xs generalizing pending with
  | nil =>
    cases pending with
    | none =>
      rw [List.nil_append, utf8DecodeFrom, utf8DecodeFrom, if_pos hb]
      rfl
    | some pending =>
      have hlow := pending.continues
      have hbounds : ¬ (pending.low ≤ b.toNat ∧ b.toNat ≤ pending.high) := by omega
      rw [List.nil_append, utf8DecodeFrom, utf8DecodeFrom, dif_neg hbounds]
      rfl
  | cons a xs ih =>
    rw [List.cons_append]
    cases pending with
    | none =>
      rw [utf8DecodeFrom, utf8DecodeFrom]
      by_cases ha : a.toNat < 0x80
      · rw [if_pos ha, if_pos ha, ih, Option.map_bind, Option.bind_map]
        congr 1
        funext x
        unfold Function.comp
        rw [Option.map_map]
        rfl
      · rw [if_neg ha, if_neg ha, Option.bind_assoc]
        congr 1
        funext pending
        exact ih _
    | some pending =>
      rw [utf8DecodeFrom, utf8DecodeFrom]
      by_cases ha : pending.low ≤ a.toNat ∧ a.toNat ≤ pending.high
      · rw [dif_pos ha, dif_pos ha]
        split
        · rw [ih, Option.map_bind, Option.bind_map]
          congr 1
          funext x
          unfold Function.comp
          rw [Option.map_map]
          rfl
        · exact ih _
      · rw [dif_neg ha, dif_neg ha]
        rfl

theorem utf8Decode_append {b : UInt8} (hb : b.toNat < 0x80) (xs ys : Bytes) :
    utf8Decode (xs ++ b :: ys) =
      (utf8Decode xs).bind fun x =>
        (utf8Decode ys).map fun y => x ++ Fin.ofNat 0x110000 b.toNat :: y :=
  utf8DecodeFrom_append hb none xs ys

/-- An ASCII character of a text is a byte of it. -/
theorem mem_of_mem_utf8DecodeFrom {pending : Option Pending} {bytes : Bytes} {text : Text}
    (h : utf8DecodeFrom pending bytes = some text) {c : Fin 0x110000} (hc : c ∈ text)
    (hascii : c.val < 0x80) : ∃ b ∈ bytes, b.toNat = c.val := by
  induction bytes generalizing pending text with
  | nil =>
    cases pending with
    | none =>
      rw [utf8DecodeFrom, Option.some_inj] at h
      rw [← h] at hc
      cases hc
    | some pending => cases h
  | cons a bytes ih =>
    have hrest : ∀ {pending text}, utf8DecodeFrom pending bytes = some text → c ∈ text →
        ∃ b ∈ a :: bytes, b.toNat = c.val := by
      intro pending text htext hmem
      obtain ⟨b, hb, heq⟩ := ih htext hmem
      exact ⟨b, List.mem_cons_of_mem a hb, heq⟩
    cases pending with
    | none =>
      rw [utf8DecodeFrom] at h
      split at h
      · obtain ⟨rest, hdecode, rfl⟩ := Option.map_eq_some_iff.mp h
        obtain rfl | hmem := List.mem_cons.mp hc
        · refine ⟨a, List.mem_cons_self, ?_⟩
          have ha := a.toNat_lt
          have hval : (Fin.ofNat 0x110000 a.toNat).val = a.toNat % 0x110000 := rfl
          omega
        · exact hrest hdecode hmem
      · obtain ⟨pending, _, hdecode⟩ := Option.bind_eq_some_iff.mp h
        exact hrest hdecode hc
    | some pending =>
      rw [utf8DecodeFrom] at h
      split at h
      · rename_i hbounds
        split at h
        · rename_i hmore
          obtain ⟨rest, hdecode, rfl⟩ := Option.map_eq_some_iff.mp h
          obtain rfl | hmem := List.mem_cons.mp hc
          · have hle := pending.le_next hbounds.1
            have hlt := pending.next_le hbounds.2
            rw [hmore, pow_zero, mul_one] at hle hlt
            have hval : (Fin.ofNat 0x110000 (pending.next a.toNat)).val =
              pending.next a.toNat % 0x110000 := rfl
            omega
          · exact hrest hdecode hmem
        · exact hrest h hc
      · cases h

theorem eq_nil_of_utf8DecodeFrom {pending : Option Pending} {bytes : Bytes}
    (h : utf8DecodeFrom pending bytes = some []) : pending = none ∧ bytes = [] := by
  induction bytes generalizing pending with
  | nil =>
    cases pending with
    | none => exact ⟨rfl, rfl⟩
    | some pending => cases h
  | cons a bytes ih =>
    cases pending with
    | none =>
      rw [utf8DecodeFrom] at h
      split at h
      · obtain ⟨rest, _, hcons⟩ := Option.map_eq_some_iff.mp h
        cases hcons
      · obtain ⟨pending, _, hdecode⟩ := Option.bind_eq_some_iff.mp h
        cases (ih hdecode).1
    | some pending =>
      rw [utf8DecodeFrom] at h
      split at h
      · split at h
        · obtain ⟨rest, _, hcons⟩ := Option.map_eq_some_iff.mp h
          cases hcons
        · cases (ih h).1
      · cases h

theorem isBreak_ofNat (b : UInt8) :
    isBreak 0x0A 0x0D (Fin.ofNat 0x110000 b.toNat) = isBreak 0x0A 0x0D b := by
  have hb := b.toNat_lt
  have hval : (Fin.ofNat 0x110000 b.toNat).val = b.toNat := by
    have hmod : (Fin.ofNat 0x110000 b.toNat).val = b.toNat % 0x110000 := rfl
    omega
  unfold isBreak
  simp only [Fin.ext_iff, hval, ← UInt8.toNat_inj]
  rfl

theorem toNat_lt_of_isBreak {b : UInt8} (h : isBreak 0x0A 0x0D b = true) : b.toNat < 0x80 := by
  unfold isBreak at h
  simp only [Bool.or_eq_true, decide_eq_true_iff] at h
  obtain rfl | rfl := h <;> decide

theorem unbroken_utf8Decode {bytes : Bytes} {text : Text} (h : utf8Decode bytes = some text)
    (hbytes : Unbroken 0x0A 0x0D bytes) : Unbroken 0x0A 0x0D text := by
  intro c hc
  by_contra hbreak
  have hascii : c.val < 0x80 := by
    rw [Bool.not_eq_false] at hbreak
    unfold isBreak at hbreak
    simp only [Bool.or_eq_true, decide_eq_true_iff] at hbreak
    obtain rfl | rfl := hbreak <;> decide
  obtain ⟨b, hb, heq⟩ := mem_of_mem_utf8DecodeFrom h hc hascii
  apply hbreak
  have hcb : c = Fin.ofNat 0x110000 b.toNat := by
    apply Fin.ext
    have hmod : (Fin.ofNat 0x110000 b.toNat).val = b.toNat % 0x110000 := rfl
    omega
  rw [hcb, isBreak_ofNat]
  exact hbytes b hb

/-- The runs of a text are those of its bytes, decoded. -/
theorem forall₂_runs {bytes : Bytes} {text : Text} (h : utf8Decode bytes = some text) :
    List.Forall₂ (fun line decoded => utf8Decode line = some decoded)
      (runs 0x0A 0x0D bytes) (runs 0x0A 0x0D text) := by
  induction hlength : bytes.length using Nat.strong_induction_on generalizing bytes text with
  | _ length ih =>
    obtain hbytes | ⟨a, x, b, rfl, ha, hx⟩ := unbroken_or_break 0x0A 0x0D bytes
    · rw [runs_unbroken hbytes, runs_unbroken (unbroken_utf8Decode h hbytes)]
      unfold someLine
      by_cases hnil : bytes = []
      · rw [hnil, utf8Decode_nil, Option.some_inj] at h
        rw [if_pos hnil, if_pos h.symm]
        exact List.Forall₂.nil
      · have htext : text ≠ [] := by
          intro htext
          rw [htext] at h
          exact hnil (eq_nil_of_utf8DecodeFrom h).2
        rw [if_neg hnil, if_neg htext]
        exact List.Forall₂.cons h List.Forall₂.nil
    · rw [utf8Decode_append (toNat_lt_of_isBreak hx)] at h
      obtain ⟨before, hbefore, hmap⟩ := Option.bind_eq_some_iff.mp h
      obtain ⟨after, hafter, rfl⟩ := Option.map_eq_some_iff.mp hmap
      have hpoint : isBreak 0x0A 0x0D (Fin.ofNat 0x110000 x.toNat) = true := by
        rw [isBreak_ofNat]
        exact hx
      rw [List.length_append, List.length_cons] at hlength
      rw [runs_append_break hx, runs_append_break hpoint]
      apply List.rel_append
      · exact ih a.length (by omega) hbefore rfl
      · exact ih b.length (by omega) hafter rfl

theorem utf8Decode_of_runs {bytes : Bytes}
    (h : ∀ line ∈ runs 0x0A 0x0D bytes, ∃ decoded, utf8Decode line = some decoded) :
    ∃ text, utf8Decode bytes = some text := by
  induction hlength : bytes.length using Nat.strong_induction_on generalizing bytes with
  | _ length ih =>
    obtain hbytes | ⟨a, x, b, rfl, ha, hx⟩ := unbroken_or_break 0x0A 0x0D bytes
    · by_cases hnil : bytes = []
      · rw [hnil]
        exact ⟨[], utf8Decode_nil⟩
      · apply h
        rw [runs_unbroken hbytes]
        unfold someLine
        rw [if_neg hnil]
        exact List.mem_singleton_self bytes
    · rw [runs_append_break hx] at h
      rw [List.length_append, List.length_cons] at hlength
      obtain ⟨before, hbefore⟩ := ih a.length (by omega)
        (fun line hline => h line (List.mem_append_left _ hline)) rfl
      obtain ⟨after, hafter⟩ := ih b.length (by omega)
        (fun line hline => h line (List.mem_append_right _ hline)) rfl
      rw [utf8Decode_append (toNat_lt_of_isBreak hx), hbefore, hafter]
      exact ⟨_, rfl⟩

theorem unbroken_of_utf8Decode {bytes : Bytes} {text : Text} (h : utf8Decode bytes = some text)
    (htext : Unbroken 0x0A 0x0D text) : Unbroken 0x0A 0x0D bytes := by
  obtain hbytes | ⟨a, x, b, rfl, ha, hx⟩ := unbroken_or_break 0x0A 0x0D bytes
  · exact hbytes
  · rw [utf8Decode_append (toNat_lt_of_isBreak hx)] at h
    obtain ⟨before, _, hmap⟩ := Option.bind_eq_some_iff.mp h
    obtain ⟨after, _, rfl⟩ := Option.map_eq_some_iff.mp hmap
    have hpoint := htext (Fin.ofNat 0x110000 x.toNat)
      (List.mem_append_right before List.mem_cons_self)
    rw [isBreak_ofNat, hx] at hpoint
    cases hpoint

end ClaudeCodeBridge.Program
