import Mathlib.Data.Nat.Digits.Lemmas

/-!
# Texts and numbers in ASCII JSON

A text is a list of code points, surrogates included.  `quoted` is the ASCII JSON string
of a text: printable characters stand for themselves or for a two-character escape, and
every other UTF-16 unit of the text for an escape of four hexadecimal digits.  A reader
of units (`readUnit`) shows that a quoted text can be told from whatever follows it, and
determines the UTF-16 units of the text (`quoted_append_inj`).  They determine the text
unless a high surrogate stands directly before a low one (`utf16_injective`).
-/

set_option autoImplicit false

namespace ClaudeCodeBridge.Program

abbrev Text := List (Fin 0x110000)
abbrev Bytes := List UInt8

instance neZero_codePoints : NeZero 0x110000 := ⟨by decide⟩

instance lawfulBEq_text : LawfulBEq Text := List.instLawfulBEq

/-- The bytes of an ASCII literal. -/
def ascii (s : String) : Bytes := s.toList.map fun c => UInt8.ofNat c.toNat

/-- An ASCII literal as a text. -/
def asciiText (s : String) : Text := s.toList.map fun c => Fin.ofNat 0x110000 c.toNat

def utf16Point (c : Fin 0x110000) : List ℕ :=
  if c.val < 0x10000 then [c.val]
  else [0xD800 + (c.val - 0x10000) / 1024, 0xDC00 + (c.val - 0x10000) % 1024]

def utf16 (text : Text) : List ℕ := text.flatMap utf16Point

def isHigh (n : ℕ) : Bool := 0xD800 ≤ n && n < 0xDC00
def isLow (n : ℕ) : Bool := 0xDC00 ≤ n && n < 0xE000

/-- No high surrogate stands directly before a low one. -/
def Unpaired (text : Text) : Prop :=
  text.IsChain fun c d => ¬ (isHigh c.val = true ∧ isLow d.val = true)

theorem utf16Point_lt {c : Fin 0x110000} {u : ℕ} (h : u ∈ utf16Point c) : u < 0x10000 := by
  have hc := c.isLt
  unfold utf16Point at h
  split at h
  · rw [List.mem_singleton] at h
    omega
  · simp only [List.mem_cons, List.not_mem_nil, or_false] at h
    omega

theorem utf16_lt {text : Text} {u : ℕ} (h : u ∈ utf16 text) : u < 0x10000 := by
  obtain ⟨c, _, hu⟩ := List.mem_flatMap.mp h
  exact utf16Point_lt hu

/-- Join each high surrogate with a low one that follows it. -/
def joinSurrogates : List ℕ → List ℕ
  | [] => []
  | [u] => [u]
  | u :: v :: units =>
    if isHigh u && isLow v then
      (0x10000 + (u - 0xD800) * 1024 + (v - 0xDC00)) :: joinSurrogates units
    else u :: joinSurrogates (v :: units)

theorem joinSurrogates_cons {u : ℕ} {units : List ℕ}
    (h : ∀ v ∈ units.head?, ¬ (isHigh u = true ∧ isLow v = true)) :
    joinSurrogates (u :: units) = u :: joinSurrogates units := by
  cases units with
  | nil => rfl
  | cons v units =>
    have hpair : (isHigh u && isLow v) = false := by
      rw [Bool.eq_false_iff]
      intro hboth
      exact h v rfl ((Bool.and_eq_true _ _).mp hboth)
    rw [joinSurrogates, hpair]
    rfl

theorem head_utf16 {c : Fin 0x110000} {text : Text} {v : ℕ}
    (h : v ∈ (utf16 (c :: text)).head?) (hlow : isLow v = true) : v = c.val := by
  have hc := c.isLt
  simp only [utf16, List.flatMap_cons, utf16Point] at h
  split at h
  · simpa using h.symm
  · simp only [List.cons_append, List.head?_cons, Option.mem_def, Option.some.injEq] at h
    simp only [isLow, Bool.and_eq_true, decide_eq_true_eq] at hlow
    omega

theorem joinSurrogates_utf16 {text : Text} (h : Unpaired text) :
    joinSurrogates (utf16 text) = text.map fun c => c.val := by
  induction text with
  | nil => rfl
  | cons c text ih =>
    have hc := c.isLt
    have hrest := ih (List.IsChain.tail h)
    have hsplit : utf16 (c :: text) = utf16Point c ++ utf16 text := by
      simp only [utf16, List.flatMap_cons]
    rw [hsplit, List.map_cons, ← hrest, utf16Point]
    split
    · rw [List.singleton_append, joinSurrogates_cons]
      intro v hv hboth
      cases text with
      | nil => exact absurd hv (by simp [utf16])
      | cons d text =>
        have hvd := head_utf16 hv hboth.2
        rw [hvd] at hboth
        exact (List.isChain_cons_cons.mp h).1 hboth
    · have hpair : (isHigh (0xD800 + (c.val - 0x10000) / 1024) &&
          isLow (0xDC00 + (c.val - 0x10000) % 1024)) = true := by
        simp only [isHigh, isLow, Bool.and_eq_true, decide_eq_true_eq]
        omega
      rw [List.cons_append, List.cons_append, List.nil_append, joinSurrogates, hpair]
      simp only [if_true, List.cons.injEq, and_true]
      omega

theorem utf16_injective {text other : Text} (htext : Unpaired text) (hother : Unpaired other)
    (h : utf16 text = utf16 other) : text = other := by
  have hjoined := joinSurrogates_utf16 htext
  rw [h, joinSurrogates_utf16 hother] at hjoined
  exact (List.map_injective_iff.mpr Fin.val_injective hjoined).symm

def hexDigit (n : ℕ) : UInt8 := if n < 10 then UInt8.ofNat (48 + n) else UInt8.ofNat (87 + n)

/-- The escape of one UTF-16 unit. -/
def escapeUnit (u : ℕ) : Bytes :=
  if u = 0x22 then [0x5C, 0x22]
  else if u = 0x5C then [0x5C, 0x5C]
  else if u = 0x0A then [0x5C, 0x6E]
  else if u = 0x0D then [0x5C, 0x72]
  else if u = 0x09 then [0x5C, 0x74]
  else if u = 0x0C then [0x5C, 0x66]
  else if u = 0x08 then [0x5C, 0x62]
  else if 0x20 ≤ u ∧ u ≤ 0x7E then [UInt8.ofNat u]
  else [0x5C, 0x75, hexDigit (u / 4096), hexDigit (u / 256 % 16), hexDigit (u / 16 % 16),
    hexDigit (u % 16)]

def escapeUnits (units : List ℕ) : Bytes := units.flatMap escapeUnit

/-- `json.dumps(text, ensure_ascii=True)`. -/
def quoted (text : Text) : Bytes := 0x22 :: (escapeUnits (utf16 text) ++ [0x22])

def hexValue (b : UInt8) : ℕ := if b.toNat < 58 then b.toNat - 48 else b.toNat - 87

theorem hexValue_hexDigit : ∀ n, n < 16 → hexValue (hexDigit n) = n := by decide

/-- Read one unit back; a bare quote ends the text. -/
def readUnit : Bytes → Option (ℕ × Bytes)
  | 0x5C :: 0x22 :: rest => some (0x22, rest)
  | 0x5C :: 0x5C :: rest => some (0x5C, rest)
  | 0x5C :: 0x6E :: rest => some (0x0A, rest)
  | 0x5C :: 0x72 :: rest => some (0x0D, rest)
  | 0x5C :: 0x74 :: rest => some (0x09, rest)
  | 0x5C :: 0x66 :: rest => some (0x0C, rest)
  | 0x5C :: 0x62 :: rest => some (0x08, rest)
  | 0x5C :: 0x75 :: a :: b :: c :: d :: rest =>
    some (hexValue a * 4096 + hexValue b * 256 + hexValue c * 16 + hexValue d, rest)
  | 0x22 :: _ => none
  | b :: rest => some (b.toNat, rest)
  | [] => none

theorem readUnit_plain (u : ℕ) (hlow : 0x20 ≤ u) (hhigh : u ≤ 0x7E) (hquote : u ≠ 0x22)
    (hslash : u ≠ 0x5C) (rest : Bytes) : readUnit (UInt8.ofNat u :: rest) = some (u, rest) := by
  have hval : (UInt8.ofNat u).toNat = u := by
    rw [UInt8.toNat_ofNat']
    omega
  have hne : ∀ b : UInt8, b.toNat ≠ u → UInt8.ofNat u ≠ b := by
    rintro b hb rfl
    exact hb hval
  have h1 := hne 0x5C (by simpa using Ne.symm hslash)
  have h2 := hne 0x22 (by simpa using Ne.symm hquote)
  generalize UInt8.ofNat u = b at hval h1 h2
  unfold readUnit
  split <;> simp_all

theorem readUnit_escapeUnit {u : ℕ} (hu : u < 0x10000) (rest : Bytes) :
    readUnit (escapeUnit u ++ rest) = some (u, rest) := by
  unfold escapeUnit
  split_ifs with h1 h2 h3 h4 h5 h6 h7 h8
  · subst h1; rfl
  · subst h2; rfl
  · subst h3; rfl
  · subst h4; rfl
  · subst h5; rfl
  · subst h6; rfl
  · subst h7; rfl
  · exact readUnit_plain u h8.1 h8.2 h1 h2 rest
  · have hread : ∀ a b c d : UInt8, readUnit ([0x5C, 0x75, a, b, c, d] ++ rest) =
        some (hexValue a * 4096 + hexValue b * 256 + hexValue c * 16 + hexValue d, rest) :=
      fun _ _ _ _ => rfl
    rw [hread, hexValue_hexDigit _ (by omega), hexValue_hexDigit _ (by omega),
      hexValue_hexDigit _ (by omega), hexValue_hexDigit _ (by omega)]
    congr 2
    omega

theorem escapeUnits_append_inj {us vs : List ℕ} {x y : Bytes} (hus : ∀ u ∈ us, u < 0x10000)
    (hvs : ∀ v ∈ vs, v < 0x10000)
    (h : escapeUnits us ++ 0x22 :: x = escapeUnits vs ++ 0x22 :: y) : us = vs ∧ x = y := by
  have hend : ∀ z : Bytes, readUnit (0x22 :: z) = none := fun _ => rfl
  have hstep : ∀ (u : ℕ) (us : List ℕ) (z : Bytes), u < 0x10000 →
      readUnit (escapeUnits (u :: us) ++ 0x22 :: z) = some (u, escapeUnits us ++ 0x22 :: z) := by
    intro u us z hu
    have hsplit : escapeUnits (u :: us) ++ 0x22 :: z =
        escapeUnit u ++ (escapeUnits us ++ 0x22 :: z) := by
      simp only [escapeUnits, List.flatMap_cons, List.append_assoc]
    rw [hsplit, readUnit_escapeUnit hu]
  induction us generalizing vs with
  | nil =>
    cases vs with
    | nil => exact ⟨rfl, List.cons.inj h |>.2⟩
    | cons v vs =>
      have hread := congrArg readUnit h
      rw [hstep v vs y (hvs v List.mem_cons_self)] at hread
      exact absurd ((hend x).symm.trans hread) (by simp)
  | cons u us ih =>
    have hu := hus u List.mem_cons_self
    cases vs with
    | nil =>
      have hread := congrArg readUnit h
      rw [hstep u us x hu] at hread
      exact absurd (hread.trans (hend y)) (by simp)
    | cons v vs =>
      have hread := congrArg readUnit h
      rw [hstep u us x hu, hstep v vs y (hvs v List.mem_cons_self)] at hread
      obtain ⟨rfl, hrest⟩ := Prod.mk.inj (Option.some.inj hread)
      obtain ⟨rfl, hxy⟩ := ih (fun w hw => hus w (List.mem_cons_of_mem _ hw))
        (fun w hw => hvs w (List.mem_cons_of_mem _ hw)) hrest
      exact ⟨rfl, hxy⟩

theorem quoted_append_inj {text other : Text} {x y : Bytes}
    (h : quoted text ++ x = quoted other ++ y) : utf16 text = utf16 other ∧ x = y := by
  simp only [quoted, List.cons_append, List.append_assoc, List.nil_append, List.cons.injEq,
    true_and] at h
  exact escapeUnits_append_inj (fun _ => utf16_lt) (fun _ => utf16_lt) h

def decimal (n : ℕ) : Bytes :=
  if n = 0 then [48] else ((Nat.digits 10 n).reverse).map fun d => UInt8.ofNat (48 + d)

/-- `str` of an integer. -/
def decimalInt : ℤ → Bytes
  | .ofNat n => decimal n
  | .negSucc n => 45 :: decimal (n + 1)

theorem decimal_digit {n : ℕ} {b : UInt8} (h : b ∈ decimal n) : 48 ≤ b.toNat ∧ b.toNat < 58 := by
  unfold decimal at h
  split at h
  · rw [List.mem_singleton.mp h]
    decide
  · obtain ⟨d, hd, rfl⟩ := List.mem_map.mp h
    have hlt := Nat.digits_lt_base (by omega) (List.mem_reverse.mp hd)
    rw [UInt8.toNat_ofNat']
    omega

theorem decimal_injective {n m : ℕ} (h : decimal n = decimal m) : n = m := by
  have hdigit : ∀ ds es : List ℕ, (∀ d ∈ ds, d < 10) → (∀ e ∈ es, e < 10) →
      ds.map (fun d => UInt8.ofNat (48 + d)) = es.map (fun d => UInt8.ofNat (48 + d)) →
      ds = es := by
    intro ds es hds hes heq
    have hback := congrArg (List.map fun b : UInt8 => b.toNat - 48) heq
    rw [List.map_map, List.map_map] at hback
    have hid : ∀ ds : List ℕ, (∀ d ∈ ds, d < 10) →
        ds.map ((fun b : UInt8 => b.toNat - 48) ∘ fun d => UInt8.ofNat (48 + d)) = ds := by
      intro ds hds
      refine (List.map_congr_left ?_).trans (List.map_id ds)
      intro d hd
      have := hds d hd
      simp only [Function.comp, UInt8.toNat_ofNat', id]
      omega
    rwa [hid ds hds, hid es hes] at hback
  have hlt : ∀ n, ∀ d ∈ (Nat.digits 10 n).reverse, d < 10 := fun n d hd =>
    Nat.digits_lt_base (by omega) (List.mem_reverse.mp hd)
  -- a number and zero: zero is written with one digit, as its value
  have hzero : ∀ k, k ≠ 0 → decimal k ≠ decimal 0 := by
    intro k hk heq
    rw [decimal, decimal, if_neg hk, if_pos rfl] at heq
    have hdigits := hdigit _ [0] (hlt k) (by simp) heq
    have hreverse := congrArg List.reverse hdigits
    rw [List.reverse_reverse, List.reverse_singleton] at hreverse
    have hvalue := Nat.ofDigits_digits 10 k
    rw [hreverse] at hvalue
    exact hk (by simpa [Nat.ofDigits] using hvalue.symm)
  by_cases hn : n = 0
  · by_cases hm : m = 0
    · rw [hn, hm]
    · subst hn
      exact absurd h.symm (hzero m hm)
  · by_cases hm : m = 0
    · subst hm
      exact absurd h (hzero n hn)
    · rw [decimal, decimal, if_neg hn, if_neg hm] at h
      have hreverse := List.reverse_injective (hdigit _ _ (hlt n) (hlt m) h)
      exact Nat.digits_inj_iff.mp hreverse

theorem decimalInt_byte {i : ℤ} {b : UInt8} (h : b ∈ decimalInt i) : b ≠ 0x2C := by
  rintro rfl
  cases i with
  | ofNat n => exact absurd (decimal_digit h).1 (by decide)
  | negSucc n =>
    rcases List.mem_cons.mp h with heq | hmem
    · exact absurd heq (by decide)
    · exact absurd (decimal_digit hmem).1 (by decide)

theorem decimalInt_injective {i j : ℤ} (h : decimalInt i = decimalInt j) : i = j := by
  have hsign : ∀ n m, decimal n ≠ 45 :: decimal m := by
    intro n m heq
    have hmem : (45 : UInt8) ∈ decimal n := by
      rw [heq]
      exact List.mem_cons_self
    exact absurd (decimal_digit hmem).1 (by decide)
  cases i with
  | ofNat n =>
    cases j with
    | ofNat m => rw [decimal_injective h]
    | negSucc m => exact absurd h (hsign n (m + 1))
  | negSucc n =>
    cases j with
    | ofNat m => exact absurd h.symm (hsign m (n + 1))
    | negSucc m =>
      have hnm := decimal_injective (List.cons.inj h).2
      rw [Nat.succ.inj hnm]

theorem decimalInt_append_inj {i j : ℤ} {x y : Bytes}
    (h : decimalInt i ++ 0x2C :: x = decimalInt j ++ 0x2C :: y) : i = j ∧ x = y := by
  have htake : ∀ (i : ℤ) (z : Bytes),
      (decimalInt i ++ 0x2C :: z).takeWhile (fun b => b != 0x2C) = decimalInt i := by
    intro i z
    rw [List.takeWhile_append_of_pos fun b hb => by simpa using decimalInt_byte hb]
    simp
  have hij : decimalInt i = decimalInt j := by
    rw [← htake i x, h, htake j y]
  rw [hij] at h
  exact ⟨decimalInt_injective hij, (List.cons.inj (List.append_cancel_left h)).2⟩

end ClaudeCodeBridge.Program
