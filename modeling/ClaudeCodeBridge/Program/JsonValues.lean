import Mathlib.Data.List.TakeWhile
import ClaudeCodeBridge.Program.Numerals

/-!
# JSON values and their texts

`json.dumps(value, ensure_ascii=False, sort_keys=True)` and `json.loads` over texts of code
points.  A dict is the list of its fields in the order of its keys, and a float is the literal
that is written for it.  What is written of a value is read back as the value, whatever ends the
text after it (`scan_dumps`, `loads_dumps`).

The bounds of an interpreter on the depth of a text and on the digits of a number are left out.
-/

set_option autoImplicit false

namespace ClaudeCodeBridge.Program.JsonCode

mutual

inductive Value where
  | null
  | bool (value : Bool)
  | int (value : ℤ)
  /-- A float, as the literal that stands for it. -/
  | real (literal : Text)
  | str (text : Text)
  | arr (items : Items)
  | obj (fields : Fields)

inductive Items where
  | nil
  | cons (first : Value) (rest : Items)

inductive Fields where
  | nil
  | cons (key : Text) (first : Value) (rest : Fields)

end

namespace Fields

def keys : Fields → List Text
  | nil => []
  | cons key _ rest => key :: keys rest

/-- Add a field, unless its key is there. -/
def add (key : Text) (first : Value) : Fields → Fields
  | nil => cons key first nil
  | cons other value rest =>
    if key < other then cons key first (cons other value rest)
    else if key = other then cons other value rest
    else cons other value (add key first rest)

/-- The dict of some fields: of several with one key, the last is kept. -/
def dict : Fields → Fields
  | nil => nil
  | cons key first rest => (dict rest).add key first

end Fields

def quote : Fin 0x110000 := 0x22
def backslash : Fin 0x110000 := 0x5C
def comma : Fin 0x110000 := 0x2C
def colon : Fin 0x110000 := 0x3A
def space : Fin 0x110000 := 0x20
def openBrace : Fin 0x110000 := 0x7B
def closeBrace : Fin 0x110000 := 0x7D
def openBracket : Fin 0x110000 := 0x5B
def closeBracket : Fin 0x110000 := 0x5D

def hexChar (n : ℕ) : Fin 0x110000 :=
  if n < 10 then Fin.ofNat 0x110000 (48 + n) else Fin.ofNat 0x110000 (87 + n)

/-- `ESCAPE_DCT`: non-ASCII characters stand for themselves. -/
def escapeChar (c : Fin 0x110000) : Text :=
  if c = quote then [backslash, quote]
  else if c = backslash then [backslash, backslash]
  else if c.val = 0x0A then [backslash, 0x6E]
  else if c.val = 0x0D then [backslash, 0x72]
  else if c.val = 0x09 then [backslash, 0x74]
  else if c.val = 0x0C then [backslash, 0x66]
  else if c.val = 0x08 then [backslash, 0x62]
  else if c.val < 0x20 then
    [backslash, 0x75, 0x30, 0x30, hexChar (c.val / 16), hexChar (c.val % 16)]
  else [c]

def escape (text : Text) : Text := text.flatMap escapeChar

def intText : ℤ → Text
  | .ofNat n => digitsOf n
  | .negSucc n => 0x2D :: digitsOf (n + 1)

mutual

def dumps : Value → Text
  | .null => asciiText "null"
  | .bool true => asciiText "true"
  | .bool false => asciiText "false"
  | .int value => intText value
  | .real literal => literal
  | .str text => quote :: (escape text ++ [quote])
  | .arr items => openBracket :: (dumpsItems items ++ [closeBracket])
  | .obj fields => openBrace :: (dumpsFields fields ++ [closeBrace])

def dumpsItems : Items → Text
  | .nil => []
  | .cons first .nil => dumps first
  | .cons first (.cons second rest) =>
    dumps first ++ comma :: space :: dumpsItems (.cons second rest)

def dumpsFields : Fields → Text
  | .nil => []
  | .cons key first .nil => quote :: (escape key ++ quote :: colon :: space :: dumps first)
  | .cons key first (.cons other second rest) =>
    quote :: (escape key ++ quote :: colon :: space :: (dumps first ++
      comma :: space :: dumpsFields (.cons other second rest)))

end

def isBlank (c : Fin 0x110000) : Bool := c.val = 0x20 || c.val = 0x09 || c.val = 0x0A || c.val = 0x0D

def skip (text : Text) : Text := text.dropWhile isBlank

def hexDigit? (c : Fin 0x110000) : Option ℕ :=
  if 48 ≤ c.val ∧ c.val ≤ 57 then some (c.val - 48)
  else if 97 ≤ c.val ∧ c.val ≤ 102 then some (c.val - 87)
  else if 65 ≤ c.val ∧ c.val ≤ 70 then some (c.val - 55)
  else none

/-- The unit of four hexadecimal digits. -/
def hexUnit (a b c d : Fin 0x110000) : Option ℕ := do
  let a ← hexDigit? a
  let b ← hexDigit? b
  let c ← hexDigit? c
  let d ← hexDigit? d
  return ((a * 16 + b) * 16 + c) * 16 + d

/-- The character of an escape other than `\u`. -/
def simpleEscape (c : Fin 0x110000) : Option (Fin 0x110000) :=
  if c = quote ∨ c = backslash ∨ c.val = 0x2F then some c
  else if c.val = 0x62 then some 0x08
  else if c.val = 0x66 then some 0x0C
  else if c.val = 0x6E then some 0x0A
  else if c.val = 0x72 then some 0x0D
  else if c.val = 0x74 then some 0x09
  else none

/-- A unit before what has been read after it: a high surrogate joins a low one. -/
def joinUnit (unit : ℕ) (text : Text) : Text :=
  match text with
  | [] => [Fin.ofNat 0x110000 unit]
  | c :: rest =>
    if isHigh unit && isLow c.val then
      Fin.ofNat 0x110000 (0x10000 + (unit - 0xD800) * 1024 + (c.val - 0xDC00)) :: rest
    else Fin.ofNat 0x110000 unit :: c :: rest

/-- `scanstring`, after the opening quote: the string, and the text after its closing quote. -/
def scan_string : Text → Option (Text × Text)
  | [] => none
  | c :: rest =>
    if c = quote then some ([], rest)
    else if c = backslash then
      match rest with
      | [] => none
      | e :: rest =>
        if e.val = 0x75 then
          match rest with
          | a :: b :: c :: d :: rest =>
            (hexUnit a b c d).bind fun unit =>
              (scan_string rest).map fun found => (joinUnit unit found.1, found.2)
          | _ => none
        else
          (simpleEscape e).bind fun x => (scan_string rest).map fun found => (x :: found.1, found.2)
    else if c.val < 0x20 then none
    else (scan_string rest).map fun found => (c :: found.1, found.2)

def isDigit (c : Fin 0x110000) : Bool := 48 ≤ c.val && c.val ≤ 57

/-- What a number is written with. -/
def isNumeric (c : Fin 0x110000) : Bool :=
  isDigit c || c.val = 0x2B || c.val = 0x2D || c.val = 0x2E || c.val = 0x45 || c.val = 0x65

/-- `\.[0-9]+` where it is. -/
def fractionOf : Text → Text
  | [] => []
  | c :: rest =>
    if c.val = 0x2E ∧ rest.takeWhile isDigit ≠ [] then c :: rest.takeWhile isDigit else []

/-- `[eE][-+]?[0-9]+` where it is. -/
def exponentOf : Text → Text
  | [] => []
  | c :: rest =>
    if c.val = 0x45 ∨ c.val = 0x65 then
      let sign := rest.takeWhile fun d => d.val = 0x2B || d.val = 0x2D
      let digits := (rest.drop sign.length).takeWhile isDigit
      if sign.length ≤ 1 ∧ digits ≠ [] then c :: (sign ++ digits) else []
    else []

/-- A number after its sign and its whole part, and what it leaves. -/
def numberAfter (minus whole rest : Text) : Value × Text :=
  let fraction := fractionOf rest
  let exponent := exponentOf (rest.drop fraction.length)
  let after := (rest.drop fraction.length).drop exponent.length
  if fraction = [] ∧ exponent = [] then
    let value : ℤ := digitsValue whole
    (.int (if minus = [] then value else -value), after)
  else (.real (minus ++ whole ++ fraction ++ exponent), after)

/-- `NUMBER_RE` at the beginning of a text. -/
def number (text : Text) : Option (Value × Text) :=
  let minus : Text := if text.head? = some 0x2D then [0x2D] else []
  let body := text.drop minus.length
  let whole : Text := if body.head? = some 0x30 then [0x30] else body.takeWhile isDigit
  if whole = [] then none else some (numberAfter minus whole (body.drop whole.length))

def scan_number (text : Text) : Option (Value × Text) :=
  (number (text.takeWhile isNumeric)).map fun found =>
    (found.1, found.2 ++ text.dropWhile isNumeric)

def keywords : List (Text × Value) :=
  [(asciiText "null", .null), (asciiText "true", .bool true), (asciiText "false", .bool false),
    (asciiText "NaN", .real (asciiText "NaN")),
    (asciiText "Infinity", .real (asciiText "Infinity")),
    (asciiText "-Infinity", .real (asciiText "-Infinity"))]

def scan_keyword (text : Text) : Option (Value × Text) :=
  (keywords.find? fun keyword => keyword.1.isPrefixOf text).map fun keyword =>
    (keyword.2, text.drop keyword.1.length)

/-- A text after a character that must be there. -/
def expect (c : Fin 0x110000) : Text → Option Text
  | [] => none
  | d :: rest => if d = c then some rest else none

mutual

/-- `scan_once`, to a depth. -/
def scan_value : ℕ → Text → Option (Value × Text)
  | 0, _ => none
  | _ + 1, [] => none
  | depth + 1, c :: rest =>
    if c = quote then (scan_string rest).map fun found => (.str found.1, found.2)
    else if c = openBrace then
      match skip rest with
      | [] => none
      | d :: after =>
        if d = closeBrace then some (.obj .nil, after)
        else (scan_fields depth (d :: after)).map fun found => (.obj found.1.dict, found.2)
    else if c = openBracket then
      match skip rest with
      | [] => none
      | d :: after =>
        if d = closeBracket then some (.arr .nil, after)
        else (scan_items depth (d :: after)).map fun found => (.arr found.1, found.2)
    else (scan_keyword (c :: rest)).or (scan_number (c :: rest))

def scan_items : ℕ → Text → Option (Items × Text)
  | 0, _ => none
  | depth + 1, text =>
    (scan_value depth text).bind fun first =>
      match skip first.2 with
      | [] => none
      | d :: after =>
        if d = closeBracket then some (.cons first.1 .nil, after)
        else if d = comma then
          (scan_items depth (skip after)).map fun found => (.cons first.1 found.1, found.2)
        else none

def scan_fields : ℕ → Text → Option (Fields × Text)
  | 0, _ => none
  | depth + 1, text =>
    (expect quote text).bind fun rest =>
      (scan_string rest).bind fun key =>
        (expect colon (skip key.2)).bind fun rest =>
          (scan_value depth (skip rest)).bind fun first =>
            match skip first.2 with
            | [] => none
            | d :: after =>
              if d = closeBrace then some (.cons key.1 first.1 .nil, after)
              else if d = comma then
                (scan_fields depth (skip after)).map fun found =>
                  (.cons key.1 first.1 found.1, found.2)
              else none

end

/-- `json.loads`; none is a `JSONDecodeError`. -/
def loads (text : Text) : Option Value :=
  if text.head? = some 0xFEFF then none
  else
    (scan_value (text.length + 1) (skip text)).bind fun found =>
      if skip found.2 = [] then some found.1 else none

variable {text rest : Text}

/-- A float's literal. -/
def IsReal (literal : Text) : Prop :=
  literal ∈ [asciiText "NaN", asciiText "Infinity", asciiText "-Infinity"] ∨
    (literal.all isNumeric = true ∧ number literal = some (.real literal, []))

mutual

/-- Every dict has its fields in the order of their keys, and a float its literal. -/
def Value.Canonical : Value → Prop
  | .null => True
  | .bool _ => True
  | .int _ => True
  | .real literal => IsReal literal
  | .str _ => True
  | .arr items => items.Canonical
  | .obj fields => fields.Canonical

def Items.Canonical : Items → Prop
  | .nil => True
  | .cons first rest => first.Canonical ∧ rest.Canonical

def Fields.Canonical : Fields → Prop
  | .nil => True
  | .cons key first rest =>
    (∀ other ∈ rest.keys, key < other) ∧ first.Canonical ∧ rest.Canonical

end

theorem dict_of_canonical (fields : Fields) (h : fields.Canonical) : fields.dict = fields := by
  cases fields with
  | nil => rfl
  | cons key first rest =>
    have ih := dict_of_canonical rest h.2.2
    rw [Fields.dict, ih]
    cases rest with
    | nil => rfl
    | cons other second rest =>
      have hlt : key < other := h.1 other List.mem_cons_self
      rw [Fields.add, if_pos hlt]

theorem hexDigit?_hexChar : ∀ n, n < 16 → hexDigit? (hexChar n) = some n := by decide

theorem hexUnit_hexChar {n : ℕ} (h : n < 0x20) :
    hexUnit 0x30 0x30 (hexChar (n / 16)) (hexChar (n % 16)) = some n := by
  have hzero : hexDigit? 0x30 = some 0 := by decide
  unfold hexUnit
  rw [hzero, hexDigit?_hexChar _ (by omega), hexDigit?_hexChar _ (by omega)]
  simp only [Option.bind_eq_bind, Option.bind_some, Option.pure_def, Option.some.injEq]
  omega

theorem joinUnit_low {n : ℕ} (h : n < 0x20) (text : Text) :
    joinUnit n text = Fin.ofNat 0x110000 n :: text := by
  have hhigh : isHigh n = false := by
    unfold isHigh
    rw [decide_eq_false (by omega), Bool.false_and]
  cases text with
  | nil => rfl
  | cons c text =>
    rw [joinUnit, hhigh, Bool.false_and]
    rfl

theorem scan_simple {e x : Fin 0x110000} (he : e.val ≠ 0x75) (hx : simpleEscape e = some x)
    (rest : Text) :
    scan_string (backslash :: e :: rest) =
      (scan_string rest).map fun found => (x :: found.1, found.2) := by
  rw [scan_string.eq_def]
  simp only
  rw [if_neg (by decide), if_pos trivial, if_neg he, hx, Option.bind_some]

/-- A character is read back. -/
theorem scan_escapeChar (c : Fin 0x110000) (rest : Text) :
    scan_string (escapeChar c ++ rest) =
      (scan_string rest).map fun found => (c :: found.1, found.2) := by
  have hval : ∀ {n : ℕ}, c.val = n → n < 0x110000 → c = Fin.ofNat 0x110000 n := by
    intro n hn hlt
    apply Fin.ext
    rw [hn]
    exact (Nat.mod_eq_of_lt hlt).symm
  unfold escapeChar
  split
  · rename_i hc
    subst hc
    exact scan_simple (by decide) (by decide) rest
  · rename_i hquote
    split
    · rename_i hc
      subst hc
      exact scan_simple (by decide) (by decide) rest
    · rename_i hslash
      iterate 5
        split
        · rename_i hc
          rw [hval hc (by omega)]
          exact scan_simple (by decide) (by decide) rest
      split
      · rename_i hlow
        -- the escape of four digits
        simp only [List.cons_append, List.nil_append]
        rw [scan_string.eq_def]
        simp only
        rw [if_neg (by decide), if_pos trivial, if_pos (by decide), hexUnit_hexChar hlow,
          Option.bind_some]
        congr 1
        funext found
        rw [joinUnit_low hlow, ← hval rfl c.isLt]
      · rename_i hlow
        rw [List.cons_append, List.nil_append, scan_string.eq_def]
        simp only
        rw [if_neg hquote, if_neg hslash, if_neg hlow]

theorem scan_escape (text rest : Text) :
    scan_string (escape text ++ quote :: rest) = some (text, rest) := by
  induction text with
  | nil =>
    change scan_string (quote :: rest) = _
    rw [scan_string.eq_def]
    simp only
    rw [if_pos trivial]
  | cons c text ih =>
    have hsplit : escape (c :: text) ++ quote :: rest =
        escapeChar c ++ (escape text ++ quote :: rest) := by
      unfold escape
      rw [List.flatMap_cons, List.append_assoc]
    rw [hsplit, scan_escapeChar, ih]
    rfl

/-- No value goes on after it. -/
def Stopped (rest : Text) : Prop := ∀ c ∈ rest.head?, isNumeric c = false

theorem span_numeric (htext : text.all isNumeric = true) (hrest : Stopped rest) :
    (text ++ rest).takeWhile isNumeric = text ∧ (text ++ rest).dropWhile isNumeric = rest := by
  have hall := List.all_eq_true.mp htext
  rw [List.takeWhile_append_of_pos hall, List.dropWhile_append_of_pos hall]
  cases rest with
  | nil => simp
  | cons c rest =>
    have hc := hrest c rfl
    rw [List.takeWhile_cons_of_neg (by rw [hc]; simp), List.dropWhile_cons_of_neg (by rw [hc]; simp)]
    simp

theorem scan_number_append {value : Value} (htext : text.all isNumeric = true)
    (hvalue : number text = some (value, [])) (hrest : Stopped rest) :
    scan_number (text ++ rest) = some (value, rest) := by
  obtain ⟨htake, hdrop⟩ := span_numeric htext hrest
  unfold scan_number
  rw [htake, hdrop, hvalue]
  rfl

theorem digitsOf_all (n : ℕ) : ∀ c ∈ digitsOf n, isDigit c = true := by
  intro c hc
  have hdigit := digit_of_mem_digitsOf hc
  unfold isDigit
  rw [decide_eq_true hdigit.1, decide_eq_true hdigit.2]
  rfl

variable {c : Fin 0x110000}

theorem isNumeric_of_isDigit (h : isDigit c = true) : isNumeric c = true := by
  unfold isNumeric
  rw [h]
  rfl

theorem whole_digitsOf (n : ℕ) :
    (if (digitsOf n).head? = some 0x30 then [0x30] else (digitsOf n).takeWhile isDigit) =
      digitsOf n := by
  cases n with
  | zero => decide
  | succ n =>
    obtain ⟨c, digits, hdigits, hne⟩ := head_digitsOf (Nat.succ_pos n)
    have htake := List.takeWhile_eq_self_iff.mpr (digitsOf_all (n + 1))
    rw [htake, if_neg]
    rw [hdigits, List.head?_cons, Option.some_inj]
    rintro rfl
    exact hne rfl

theorem number_digits (n : ℕ) : number (digitsOf n) = some (.int n, []) := by
  have hminus : (digitsOf n).head? ≠ some 0x2D := by
    intro hhead
    obtain ⟨digits, hdigits⟩ : ∃ digits, digitsOf n = 0x2D :: digits := by
      cases hcase : digitsOf n with
      | nil => exact absurd hcase (digitsOf_ne_nil n)
      | cons c digits =>
        rw [hcase, List.head?_cons, Option.some_inj] at hhead
        exact ⟨digits, by rw [hhead]⟩
    have hdigit := digit_of_mem_digitsOf (hdigits ▸ List.mem_cons_self : 0x2D ∈ digitsOf n)
    exact absurd hdigit.1 (by decide)
  unfold number numberAfter
  simp only [if_neg hminus, List.length_nil, List.drop_zero, whole_digitsOf, List.drop_length,
    fractionOf, exponentOf, and_self, if_true, if_neg (digitsOf_ne_nil n)]
  rw [digitsValue_digitsOf]

theorem number_minus (n : ℕ) : number (0x2D :: digitsOf n) = some (.int (-(n : ℤ)), []) := by
  unfold number numberAfter
  simp only [List.head?_cons, if_true, List.length_singleton, List.drop_one, List.tail_cons,
    whole_digitsOf, List.drop_length, List.length_nil, List.drop_zero, fractionOf, exponentOf,
    and_self, if_neg (digitsOf_ne_nil n)]
  rw [digitsValue_digitsOf]
  rfl

theorem number_intText (i : ℤ) : number (intText i) = some (.int i, []) := by
  cases i with
  | ofNat n => exact number_digits n
  | negSucc n => exact number_minus (n + 1)

theorem intText_numeric (i : ℤ) : (intText i).all isNumeric = true := by
  have hdigits : ∀ n, (digitsOf n).all isNumeric = true := fun n =>
    List.all_eq_true.mpr fun c hc => isNumeric_of_isDigit (digitsOf_all n c hc)
  cases i with
  | ofNat n => exact hdigits n
  | negSucc n =>
    rw [intText, List.all_cons, hdigits]
    decide

theorem isPrefixOf_cons_ne {d : Fin 0x110000} (h : d ≠ c) (word text : Text) :
    (d :: word).isPrefixOf (c :: text) = false := by
  rw [List.isPrefixOf, beq_false_of_ne h, Bool.false_and]

theorem number_nil : number [] = none := rfl

theorem number_minus_sign : number [0x2D] = none := rfl

/-- No word is read where a number begins. -/
theorem scan_keyword_number {value : Value} (htext : text.all isNumeric = true)
    (hvalue : number text = some (value, [])) (rest : Text) : scan_keyword (text ++ rest) = none := by
  obtain ⟨c, tail, rfl⟩ : ∃ c tail, text = c :: tail := by
    cases text with
    | nil =>
      rw [number_nil] at hvalue
      cases hvalue
    | cons c tail => exact ⟨c, tail, rfl⟩
  have hc : isNumeric c = true := (Bool.and_eq_true _ _).mp htext |>.1
  have hne : ∀ d, isNumeric d = false → d ≠ c := by
    rintro d hd rfl
    rw [hd] at hc
    cases hc
  have hminus : (asciiText "-Infinity").isPrefixOf (c :: (tail ++ rest)) = false := by
    cases tail with
    | nil =>
      have hfirst : (0x2D : Fin 0x110000) ≠ c := by
        rintro rfl
        rw [number_minus_sign] at hvalue
        cases hvalue
      exact isPrefixOf_cons_ne hfirst _ _
    | cons d tail =>
      have hd : isNumeric d = true :=
        ((Bool.and_eq_true _ _).mp ((Bool.and_eq_true _ _).mp htext).2).1
      have hsecond : (0x49 : Fin 0x110000) ≠ d := by
        rintro rfl
        exact absurd hd (by decide)
      change (((0x2D : Fin 0x110000) == c) && (asciiText "Infinity").isPrefixOf
        (d :: (tail ++ rest))) = false
      have hrest : (asciiText "Infinity").isPrefixOf (d :: (tail ++ rest)) = false :=
        isPrefixOf_cons_ne hsecond _ _
      rw [hrest, Bool.and_false]
  unfold scan_keyword keywords
  rw [List.cons_append]
  simp only [List.find?_cons, List.find?_nil, hminus]
  have hword : ∀ (first : Fin 0x110000) (word : Text), isNumeric first = false →
      (first :: word).isPrefixOf (c :: (tail ++ rest)) = false := fun first word hfirst =>
    isPrefixOf_cons_ne (hne first hfirst) _ _
  have hnull : (asciiText "null").isPrefixOf (c :: (tail ++ rest)) = false :=
    hword 0x6E _ (by decide)
  have htrue : (asciiText "true").isPrefixOf (c :: (tail ++ rest)) = false :=
    hword 0x74 _ (by decide)
  have hfalse : (asciiText "false").isPrefixOf (c :: (tail ++ rest)) = false :=
    hword 0x66 _ (by decide)
  have hnan : (asciiText "NaN").isPrefixOf (c :: (tail ++ rest)) = false := hword 0x4E _ (by decide)
  have hinfinity : (asciiText "Infinity").isPrefixOf (c :: (tail ++ rest)) = false :=
    hword 0x49 _ (by decide)
  rw [hnull, htrue, hfalse, hnan, hinfinity]
  rfl

theorem scan_value_number {value : Value} (htext : text.all isNumeric = true)
    (hvalue : number text = some (value, [])) (hrest : Stopped rest) (depth : ℕ) :
    scan_value (depth + 1) (text ++ rest) = some (value, rest) := by
  have hword := scan_keyword_number htext hvalue rest
  have hnumber := scan_number_append htext hvalue hrest
  obtain ⟨c, tail, rfl⟩ : ∃ c tail, text = c :: tail := by
    cases text with
    | nil =>
      rw [number_nil] at hvalue
      cases hvalue
    | cons c tail => exact ⟨c, tail, rfl⟩
  have hc : isNumeric c = true := (Bool.and_eq_true _ _).mp htext |>.1
  have hne : ∀ d, isNumeric d = false → c ≠ d := by
    rintro d hd rfl
    rw [hd] at hc
    cases hc
  rw [List.cons_append] at hword hnumber ⊢
  rw [scan_value, if_neg (hne quote (by decide)), if_neg (hne openBrace (by decide)),
    if_neg (hne openBracket (by decide)), hword, hnumber]
  rfl

theorem scan_value_keyword {word : Text} {value : Value} {tail : Text} (hword : word = c :: tail)
    (hquote : c ≠ quote) (hbrace : c ≠ openBrace) (hbracket : c ≠ openBracket)
    (hread : ∀ rest, scan_keyword (word ++ rest) = some (value, rest)) (depth : ℕ) (rest : Text) :
    scan_value (depth + 1) (word ++ rest) = some (value, rest) := by
  have hkeyword := hread rest
  subst hword
  rw [List.cons_append] at hkeyword ⊢
  rw [scan_value, if_neg hquote, if_neg hbrace, if_neg hbracket, hkeyword]
  rfl

theorem stopped_of_head (h : isNumeric c = false) (rest : Text) : Stopped (c :: rest) := by
  intro d hd
  rw [List.head?_cons, Option.mem_def, Option.some_inj] at hd
  rw [← hd]
  exact h

theorem skip_cons (h : isBlank c = false) (rest : Text) :
    skip (c :: rest) = c :: rest := List.dropWhile_cons_of_neg (by rw [h]; simp)

theorem skip_space (h : isBlank c = false) (rest : Text) :
    skip (space :: c :: rest) = c :: rest := by
  unfold skip
  rw [List.dropWhile_cons_of_pos (by decide)]
  exact skip_cons h rest

/-- A value begins with no blank, and with no closing bracket. -/
theorem head_dumps (value : Value) (h : value.Canonical) :
    ∃ c tail, dumps value = c :: tail ∧ isBlank c = false ∧ c ≠ closeBracket ∧ c.val < 0x80 := by
  have hnumber : ∀ text : Text, text.all isNumeric = true → text ≠ [] →
      ∃ c tail, text = c :: tail ∧ isBlank c = false ∧ c ≠ closeBracket ∧ c.val < 0x80 := by
    intro text hall hne
    obtain ⟨c, tail, rfl⟩ := List.exists_cons_of_ne_nil hne
    have hc : isNumeric c = true := (Bool.and_eq_true _ _).mp hall |>.1
    have hclose : c ≠ closeBracket := by
      rintro rfl
      exact absurd hc (by decide)
    unfold isNumeric isDigit at hc
    simp only [Bool.or_eq_true, Bool.and_eq_true, decide_eq_true_eq] at hc
    refine ⟨c, tail, rfl, ?_, hclose, by omega⟩
    unfold isBlank
    simp only [Bool.or_eq_false_iff, decide_eq_false_iff_not]
    omega
  cases value with
  | null => exact ⟨0x6E, _, rfl, by decide, by decide, by decide⟩
  | bool value =>
    cases value with
    | true => exact ⟨0x74, _, rfl, by decide, by decide, by decide⟩
    | false => exact ⟨0x66, _, rfl, by decide, by decide, by decide⟩
  | int value =>
    refine hnumber _ (intText_numeric value) ?_
    cases value with
    | ofNat n => exact digitsOf_ne_nil n
    | negSucc n => exact List.cons_ne_nil _ _
  | real literal =>
    obtain hword | ⟨hall, hvalue⟩ := h
    · simp only [List.mem_cons, List.not_mem_nil, or_false] at hword
      obtain rfl | rfl | rfl := hword
      · exact ⟨0x4E, _, rfl, by decide, by decide, by decide⟩
      · exact ⟨0x49, _, rfl, by decide, by decide, by decide⟩
      · exact ⟨0x2D, _, rfl, by decide, by decide, by decide⟩
    · refine hnumber _ hall ?_
      rintro rfl
      rw [number_nil] at hvalue
      cases hvalue
  | str text => exact ⟨quote, _, rfl, by decide, by decide, by decide⟩
  | arr items => exact ⟨openBracket, _, rfl, by decide, by decide, by decide⟩
  | obj fields => exact ⟨openBrace, _, rfl, by decide, by decide, by decide⟩

theorem skip_dumps {value : Value} (h : value.Canonical) (rest : Text) :
    skip (dumps value ++ rest) = dumps value ++ rest := by
  obtain ⟨c, tail, hc, hblank, -⟩ := head_dumps value h
  rw [hc, List.cons_append]
  exact skip_cons hblank _

theorem skip_space_dumps {value : Value} (h : value.Canonical) (rest : Text) :
    skip (space :: (dumps value ++ rest)) = dumps value ++ rest := by
  unfold skip
  rw [List.dropWhile_cons_of_pos (by decide)]
  exact skip_dumps h rest

theorem scan_real {literal : Text} (h : IsReal literal) (hrest : Stopped rest) (depth : ℕ) :
    scan_value (depth + 1) (literal ++ rest) = some (.real literal, rest) := by
  obtain hword | ⟨hall, hvalue⟩ := h
  · simp only [List.mem_cons, List.not_mem_nil, or_false] at hword
    obtain rfl | rfl | rfl := hword
    · exact scan_value_keyword (c := 0x4E) rfl (by decide) (by decide) (by decide) (fun _ => rfl)
        depth rest
    · exact scan_value_keyword (c := 0x49) rfl (by decide) (by decide) (by decide) (fun _ => rfl)
        depth rest
    · exact scan_value_keyword (c := 0x2D) rfl (by decide) (by decide) (by decide) (fun _ => rfl)
        depth rest
  · exact scan_value_number hall hvalue hrest depth

mutual

/-- **What is written of a value is read back as the value.** -/
theorem scan_dumps (value : Value) (h : value.Canonical) (rest : Text) (hrest : Stopped rest)
    (depth : ℕ) (hdepth : (dumps value).length ≤ depth) :
    scan_value depth (dumps value ++ rest) = some (value, rest) := by
  obtain ⟨c, tail, hhead, -⟩ := head_dumps value h
  obtain ⟨depth, rfl⟩ : ∃ d, depth = d + 1 := by
    rw [hhead, List.length_cons] at hdepth
    exact ⟨depth - 1, by omega⟩
  cases value with
  | null =>
    exact scan_value_keyword (c := 0x6E) rfl (by decide) (by decide) (by decide) (fun _ => rfl)
      depth rest
  | bool value =>
    cases value with
    | true =>
      exact scan_value_keyword (c := 0x74) rfl (by decide) (by decide) (by decide) (fun _ => rfl)
        depth rest
    | false =>
      exact scan_value_keyword (c := 0x66) rfl (by decide) (by decide) (by decide) (fun _ => rfl)
        depth rest
  | int value => exact scan_value_number (intText_numeric value) (number_intText value) hrest depth
  | real literal => exact scan_real h hrest depth
  | str text =>
    rw [dumps, List.cons_append, List.append_assoc, List.singleton_append, scan_value,
      if_pos rfl, scan_escape]
    rfl
  | arr items =>
    rw [dumps, List.cons_append, List.append_assoc, List.singleton_append, scan_value,
      if_neg (by decide), if_neg (by decide), if_pos rfl]
    cases items with
    | nil =>
      rw [dumpsItems, List.nil_append, skip_cons (by decide)]
      rfl
    | cons first others =>
      obtain ⟨d, tail, hd, hblank, hclose, -⟩ := head_dumps first h.1
      have hitems := scan_dumpsItems first others h rest depth (by
        simp only [dumps, List.length_cons, List.length_append, List.length_nil] at hdepth
        omega)
      obtain ⟨more, hmore⟩ : ∃ more, dumpsItems (.cons first others) ++ closeBracket :: rest =
          d :: more := by
        cases others with
        | nil => exact ⟨_, by rw [dumpsItems, hd, List.cons_append]⟩
        | cons second others =>
          exact ⟨_, by rw [dumpsItems, hd, List.cons_append, List.cons_append]⟩
      rw [hmore] at hitems ⊢
      rw [skip_cons hblank]
      simp only
      rw [if_neg hclose, hitems]
      rfl
  | obj fields =>
    rw [dumps, List.cons_append, List.append_assoc, List.singleton_append, scan_value,
      if_neg (by decide), if_pos rfl]
    cases fields with
    | nil =>
      rw [dumpsFields, List.nil_append, skip_cons (by decide)]
      rfl
    | cons key first others =>
      have hfields := scan_dumpsFields key first others h rest depth (by
        simp only [dumps, List.length_cons, List.length_append, List.length_nil] at hdepth
        omega)
      obtain ⟨more, hmore⟩ : ∃ more, dumpsFields (.cons key first others) ++ closeBrace :: rest =
          quote :: more := by
        cases others with
        | nil | cons other second others => exact ⟨_, by rw [dumpsFields, List.cons_append]⟩
      rw [hmore] at hfields ⊢
      rw [skip_cons (by decide)]
      simp only
      rw [if_neg (by decide), hfields, Option.map_some, dict_of_canonical _ h]
termination_by sizeOf value

theorem scan_dumpsItems (first : Value) (others : Items) (h : (Items.cons first others).Canonical)
    (rest : Text) (depth : ℕ) (hdepth : (dumpsItems (.cons first others)).length + 1 ≤ depth) :
    scan_items depth (dumpsItems (.cons first others) ++ closeBracket :: rest) =
      some (.cons first others, rest) := by
  obtain ⟨depth, rfl⟩ : ∃ d, depth = d + 1 := ⟨depth - 1, by omega⟩
  cases others with
  | nil =>
    rw [dumpsItems] at hdepth ⊢
    rw [scan_items, scan_dumps first h.1 _ (stopped_of_head (by decide) rest) depth (by omega),
      Option.bind_some, skip_cons (by decide)]
    rfl
  | cons second others =>
    rw [dumpsItems, List.length_append, List.length_cons, List.length_cons] at hdepth
    obtain ⟨d, tail, hd, hblank, -⟩ := head_dumps second h.2.1
    obtain ⟨more, hmore⟩ : ∃ more, dumpsItems (.cons second others) ++ closeBracket :: rest =
        d :: more := by
      cases others with
      | nil => exact ⟨_, by rw [dumpsItems, hd, List.cons_append]⟩
      | cons third others =>
        exact ⟨_, by rw [dumpsItems, hd, List.cons_append, List.cons_append]⟩
    have hitems := scan_dumpsItems second others h.2 rest depth (by omega)
    rw [dumpsItems, List.append_assoc, List.cons_append, List.cons_append, scan_items,
      scan_dumps first h.1 _ (stopped_of_head (by decide) _) depth (by omega), Option.bind_some,
      skip_cons (by decide)]
    simp only
    rw [if_neg (by decide), if_pos trivial, hmore, skip_space hblank, ← hmore, hitems]
    rfl
termination_by sizeOf (Items.cons first others)

theorem scan_dumpsFields (key : Text) (first : Value) (others : Fields)
    (h : (Fields.cons key first others).Canonical) (rest : Text) (depth : ℕ)
    (hdepth : (dumpsFields (.cons key first others)).length + 1 ≤ depth) :
    scan_fields depth (dumpsFields (.cons key first others) ++ closeBrace :: rest) =
      some (.cons key first others, rest) := by
  obtain ⟨depth, rfl⟩ : ∃ d, depth = d + 1 := ⟨depth - 1, by omega⟩
  have hkey : ∀ after, scan_fields (depth + 1)
      (quote :: (escape key ++ quote :: colon :: space :: (dumps first ++ after))) =
        (scan_value depth (dumps first ++ after)).bind fun first =>
          match skip first.2 with
          | [] => none
          | d :: after =>
            if d = closeBrace then some (.cons key first.1 .nil, after)
            else if d = comma then
              (scan_fields depth (skip after)).map fun found => (.cons key first.1 found.1, found.2)
            else none := by
    intro after
    rw [scan_fields, expect, if_pos rfl, Option.bind_some, scan_escape, Option.bind_some,
      skip_cons (by decide), expect, if_pos rfl, Option.bind_some, skip_space_dumps h.2.1]
  cases others with
  | nil =>
    simp only [dumpsFields, List.length_cons, List.length_append] at hdepth
    rw [dumpsFields, List.cons_append, List.append_assoc, List.cons_append, List.cons_append,
      List.cons_append, hkey, scan_dumps first h.2.1 _ (stopped_of_head (by decide) rest) depth
        (by omega), Option.bind_some, skip_cons (by decide)]
    rfl
  | cons other second others =>
    simp only [dumpsFields, List.length_cons, List.length_append] at hdepth
    have hfields := scan_dumpsFields other second others h.2.2 rest depth (by omega)
    obtain ⟨more, hmore⟩ : ∃ more, dumpsFields (.cons other second others) ++ closeBrace :: rest =
        quote :: more := by
      cases others with
      | nil | cons third others => exact ⟨_, by rw [dumpsFields, List.cons_append]⟩
    rw [dumpsFields, List.cons_append, List.append_assoc, List.cons_append, List.cons_append,
      List.cons_append, List.append_assoc, hkey, List.cons_append, List.cons_append,
      scan_dumps first h.2.1 _ (stopped_of_head (by decide) _) depth (by omega), Option.bind_some,
      skip_cons (by decide)]
    simp only
    rw [if_neg (by decide), if_pos trivial, hmore, skip_space (by decide), ← hmore, hfields]
    rfl
termination_by sizeOf (Fields.cons key first others)

end

theorem loads_dumps {value : Value} (h : value.Canonical) : loads (dumps value) = some value := by
  obtain ⟨c, tail, hc, -, -, hascii⟩ := head_dumps value h
  have hbom : (dumps value).head? ≠ some 0xFEFF := by
    rw [hc, List.head?_cons, ne_eq, Option.some_inj]
    rintro rfl
    exact absurd hascii (by decide)
  have hskip : skip (dumps value) = dumps value := by
    have hskip := skip_dumps h []
    rwa [List.append_nil] at hskip
  have hread := scan_dumps value h [] (fun _ hd => by cases hd) ((dumps value).length + 1)
    (Nat.le_succ _)
  rw [List.append_nil] at hread
  unfold loads
  rw [if_neg hbom, hskip, hread]
  rfl

end ClaudeCodeBridge.Program.JsonCode
