import ClaudeCodeBridge.Program.JsonText

/-!
# Base64

Bytes as a text in the alphabet that is safe in URLs, without padding (`base64`), and the bytes
of a text that is padded first, in which characters of no alphabet are passed over
(`base64Decode`).  The decoder undoes the encoder (`base64Decode_base64`).
-/

set_option autoImplicit false

namespace ClaudeCodeBridge.Program

/-- The character of six bits. -/
def sextetChar (n : ℕ) : Fin 0x110000 :=
  Fin.ofNat 0x110000 (if n < 26 then n + 65 else if n < 52 then n + 71 else if n < 62 then n - 4
    else if n = 62 then 45 else 95)

/-- The six bits of a character, in this alphabet or the standard one. -/
def sextetOf (c : Fin 0x110000) : Option ℕ :=
  let n := c.val
  if 65 ≤ n ∧ n ≤ 90 then some (n - 65)
  else if 97 ≤ n ∧ n ≤ 122 then some (n - 71)
  else if 48 ≤ n ∧ n ≤ 57 then some (n + 4)
  else if n = 43 ∨ n = 45 then some 62
  else if n = 47 ∨ n = 95 then some 63
  else none

theorem sextet_char : ∀ n < 64, sextetOf (sextetChar n) = some n ∧ sextetChar n ≠ 61 := by
  decide

theorem sextetChar_val (n : ℕ) : 45 ≤ (sextetChar n).val ∧ (sextetChar n).val ≤ 122 := by
  have hval : ∀ m < 0x110000, (Fin.ofNat 0x110000 m).val = m := fun _ => Nat.mod_eq_of_lt
  rw [sextetChar, hval _ (by split_ifs <;> omega)]
  split_ifs <;> omega

def groupOf (a b c : UInt8) : List ℕ :=
  [a.toNat / 4, a.toNat % 4 * 16 + b.toNat / 16, b.toNat % 16 * 4 + c.toNat / 64, c.toNat % 64]

/-- A group of less than three bytes leaves out the sextets without a bit of them. -/
def sextets : Bytes → List ℕ
  | [] => []
  | [a] => (groupOf a 0 0).take 2
  | [a, b] => (groupOf a b 0).take 3
  | a :: b :: c :: bytes => groupOf a b c ++ sextets bytes

def base64 (bytes : Bytes) : Text := (sextets bytes).map sextetChar

/-- The bytes that a group of sextets is full of. -/
def octets (group : List ℕ) : Bytes :=
  let bits := fun i => group.getD i 0
  ([bits 0 * 4 + bits 1 / 16, bits 1 % 16 * 16 + bits 2 / 4, bits 2 % 4 * 64 + bits 3].map
    UInt8.ofNat).take (group.length - 1)

theorem octets_groupOf (a b c : UInt8) : octets (groupOf a b c) = [a, b, c] := by
  have ha := a.toNat_lt
  have hb := b.toNat_lt
  have hc := c.toNat_lt
  simp only [octets, groupOf, List.getD_cons_zero, List.getD_cons_succ, List.map_cons]
  rw [show a.toNat / 4 * 4 + (a.toNat % 4 * 16 + b.toNat / 16) / 16 = a.toNat by omega,
    show (a.toNat % 4 * 16 + b.toNat / 16) % 16 * 16 + (b.toNat % 16 * 4 + c.toNat / 64) / 4 =
      b.toNat by omega,
    show (b.toNat % 16 * 4 + c.toNat / 64) % 4 * 64 + c.toNat % 64 = c.toNat by omega]
  simp only [UInt8.ofNat_toNat]
  rfl

/-- The decoder after a group that is not full, and signs of padding. -/
def decodeFrom (group : List ℕ) (pads : ℕ) : Text → Option Bytes
  | [] => if group = [] then some [] else none
  | c :: text =>
    if c = 61 then
      if group.length < 2 then decodeFrom group pads text
      else if group.length + pads < 3 then decodeFrom group (pads + 1) text
      else some (octets group)
    else
      match sextetOf c with
      | none => decodeFrom group pads text
      | some n =>
        if group.length < 3 then decodeFrom (group ++ [n]) 0 text
        else (decodeFrom [] 0 text).map fun bytes => octets (group ++ [n]) ++ bytes

def base64Decode (text : Text) : Option Bytes :=
  if text.all fun c => c.val < 128 then
    decodeFrom [] 0 (text ++ List.replicate ((4 - text.length % 4) % 4) 61)
  else none

theorem decodeFrom_sextet {n : ℕ} (h : n < 64) (group : List ℕ) (pads : ℕ) (text : Text) :
    decodeFrom group pads (sextetChar n :: text) =
      if group.length < 3 then decodeFrom (group ++ [n]) 0 text
      else (decodeFrom [] 0 text).map fun bytes => octets (group ++ [n]) ++ bytes := by
  obtain ⟨hsextet, hpad⟩ := sextet_char n h
  rw [decodeFrom, if_neg hpad, hsextet]

/-- By groups of three bytes; what is left over is padded. -/
theorem decodeFrom_base64 (bytes : Bytes) :
    decodeFrom [] 0
      (base64 bytes ++ List.replicate ((4 - (base64 bytes).length % 4) % 4) 61) = some bytes := by
  have hlt : ∀ a : UInt8, a.toNat < 256 := UInt8.toNat_lt
  unfold base64
  induction bytes using sextets.induct with
  | case1 => rfl
  | case2 a =>
    have ha := hlt a
    have hzero := hlt 0
    simp only [sextets, groupOf, List.take, List.map_cons, List.map_nil, List.cons_append]
    rw [decodeFrom_sextet (by omega), decodeFrom_sextet (by omega)]
    exact congrArg (fun bytes => some (bytes.take 1)) (octets_groupOf a 0 0)
  | case3 a b =>
    have ha := hlt a
    have hb := hlt b
    have hzero := hlt 0
    simp only [sextets, groupOf, List.take, List.map_cons, List.map_nil, List.cons_append]
    rw [decodeFrom_sextet (by omega), decodeFrom_sextet (by omega), decodeFrom_sextet (by omega)]
    exact congrArg (fun bytes => some (bytes.take 2)) (octets_groupOf a b 0)
  | case4 a b c bytes ih =>
    have ha := hlt a
    have hb := hlt b
    have hc := hlt c
    simp only [sextets, groupOf, List.map_cons, List.length_cons, List.cons_append, List.nil_append]
    rw [decodeFrom_sextet (by omega), decodeFrom_sextet (by omega), decodeFrom_sextet (by omega),
      decodeFrom_sextet (by omega), Nat.add_assoc, Nat.add_assoc, Nat.add_assoc, Nat.add_mod_right]
    show (decodeFrom [] 0 _).map (fun bytes => octets (groupOf a b c) ++ bytes) = _
    rw [ih, octets_groupOf]
    rfl

theorem mem_base64 {bytes : Bytes} {c : Fin 0x110000} (h : c ∈ base64 bytes) :
    45 ≤ c.val ∧ c.val ≤ 122 := by
  obtain ⟨n, _, rfl⟩ := List.mem_map.mp h
  exact sextetChar_val n

theorem base64Decode_base64 (bytes : Bytes) : base64Decode (base64 bytes) = some bytes := by
  have hascii : (base64 bytes).all fun c => c.val < 128 :=
    List.all_eq_true.mpr fun c hc => decide_eq_true (by have := mem_base64 hc; omega)
  unfold base64Decode
  rw [if_pos hascii, decodeFrom_base64]

end ClaudeCodeBridge.Program
