import ClaudeCodeBridge.Program.JsonValues

/-!
# JSON texts that are cut

A reader who cuts a JSON text at some of its non-ASCII characters cuts it within its strings, for
there are no such characters elsewhere (`tidy_dumps`).  No piece is the text of a dict with fields
of its own: the first one ends within a string (`loads_open`), and a dict that is read from another
one is empty or has a key that begins with the punctuation behind the end of a string
(`loads_inside`).
-/

set_option autoImplicit false

namespace ClaudeCodeBridge.Program.JsonCode

variable {text rest other : Text} {cut : Fin 0x110000 → Bool}

/-! ## Strings and what is between them -/

/-- Where a character of a text stands. -/
inductive QuoteState where
  | outside
  | inside
  /-- After a backslash within a string. -/
  | escaped
  deriving DecidableEq

def QuoteState.next : QuoteState → Fin 0x110000 → QuoteState
  | .outside, c => if c = quote then .inside else .outside
  | .inside, c => if c = quote then .outside else if c = backslash then .escaped else .inside
  | .escaped, _ => .inside

/-- Where a text leaves its reader. -/
def quoteState (state : QuoteState) (text : Text) : QuoteState := text.foldl QuoteState.next state

theorem quoteState_append (state : QuoteState) (text other : Text) :
    quoteState state (text ++ other) = quoteState (quoteState state text) other :=
  List.foldl_append

/-- No quotation mark and no backslash. -/
def Plain (text : Text) : Prop := ∀ c ∈ text, c ≠ quote ∧ c ≠ backslash

variable {c : Fin 0x110000}

theorem Plain.cons (h : Plain (c :: text)) : (c ≠ quote ∧ c ≠ backslash) ∧ Plain text :=
  ⟨h c List.mem_cons_self, fun d hd => h d (List.mem_cons_of_mem c hd)⟩

variable {state : QuoteState}

theorem next_plain (h : c ≠ quote ∧ c ≠ backslash)
    (hstate : state ≠ .escaped) : state.next c = state := by
  cases state with
  | outside => exact if_neg h.1
  | inside =>
    rw [QuoteState.next, if_neg h.1, if_neg h.2]
  | escaped => exact absurd rfl hstate

theorem quoteState_plain (hstate : state ≠ .escaped) (h : Plain text) :
    quoteState state text = state := by
  induction text with
  | nil => rfl
  | cons c text ih =>
    obtain ⟨hc, htext⟩ := h.cons
    change quoteState (state.next c) text = state
    rw [next_plain hc hstate]
    exact ih htext

theorem plain_takeWhile {p : Fin 0x110000 → Bool} (hquote : p quote = false)
    (hslash : p backslash = false) (text : Text) : Plain (text.takeWhile p) := by
  intro c hc
  have hp := List.mem_takeWhile_imp hc
  constructor
  · rintro rfl
    rw [hquote] at hp
    cases hp
  · rintro rfl
    rw [hslash] at hp
    cases hp

theorem skip_split (text : Text) : ∃ blanks, text = blanks ++ skip text ∧ Plain blanks :=
  ⟨text.takeWhile isBlank, List.takeWhile_append_dropWhile.symm,
    plain_takeWhile (by decide) (by decide) text⟩

/-! ## What is read is balanced -/

/-- The reader of a text who has come to its rest is outside of strings. -/
def Balanced (text rest : Text) : Prop :=
  ∃ used, text = used ++ rest ∧ quoteState .outside used = .outside

theorem Balanced.trans {after : Text} (h : Balanced text rest) (hrest : Balanced rest after) :
    Balanced text after := by
  obtain ⟨used, rfl, hused⟩ := h
  obtain ⟨more, rfl, hmore⟩ := hrest
  refine ⟨used ++ more, by rw [List.append_assoc], ?_⟩
  rw [quoteState_append, hused, hmore]

theorem balanced_plain (h : Plain text) (rest : Text) : Balanced (text ++ rest) rest :=
  ⟨text, rfl, quoteState_plain (by decide) h⟩

theorem balanced_cons (h : c ≠ quote) (rest : Text) : Balanced (c :: rest) rest :=
  ⟨[c], rfl, if_neg h⟩

theorem balanced_skip (text : Text) : Balanced text (skip text) := by
  obtain ⟨blanks, htext, hplain⟩ := skip_split text
  have h := balanced_plain hplain (skip text)
  rwa [← htext] at h

theorem hexDigit?_plain {n : ℕ} (h : hexDigit? c = some n) : c ≠ quote ∧ c ≠ backslash := by
  have hquote : hexDigit? quote = none := by decide
  have hslash : hexDigit? backslash = none := by decide
  constructor
  · rintro rfl
    rw [hquote] at h
    cases h
  · rintro rfl
    rw [hslash] at h
    cases h

theorem hexUnit_plain {a b d : Fin 0x110000} {n : ℕ} (h : hexUnit a b c d = some n) :
    Plain [a, b, c, d] := by
  unfold hexUnit at h
  simp only [Option.bind_eq_bind, Option.bind_eq_some_iff] at h
  obtain ⟨_, ha, _, hb, _, hc, _, hd, -⟩ := h
  intro x hx
  simp only [List.mem_cons, List.not_mem_nil, or_false] at hx
  obtain rfl | rfl | rfl | rfl := hx
  · exact hexDigit?_plain ha
  · exact hexDigit?_plain hb
  · exact hexDigit?_plain hc
  · exact hexDigit?_plain hd

/-- A string that is read ends with its closing quote. -/
theorem scan_string_used {text found rest : Text} (h : scan_string text = some (found, rest)) :
    ∃ used, text = used ++ rest ∧ quoteState .inside used = .outside := by
  fun_induction scan_string text generalizing found rest with
  | case1 => cases h
  | case2 =>
    cases h
    exact ⟨[quote], rfl, rfl⟩
  | case3 => cases h
  | case4 e he a b c d tail hne ih =>
    obtain ⟨n, hunit, hread⟩ := Option.bind_eq_some_iff.mp h
    obtain ⟨⟨word, after⟩, hword, hpair⟩ := Option.map_eq_some_iff.mp hread
    cases hpair
    obtain ⟨used, rfl, hused⟩ := ih hword
    refine ⟨backslash :: e :: ([a, b, c, d] ++ used), by simp, ?_⟩
    change quoteState .inside ([a, b, c, d] ++ used) = .outside
    rw [quoteState_append, quoteState_plain (by decide) (hexUnit_plain hunit), hused]
  | case5 => cases h
  | case6 e tail he hne ih =>
    obtain ⟨x, -, hread⟩ := Option.bind_eq_some_iff.mp h
    obtain ⟨⟨word, after⟩, hword, hpair⟩ := Option.map_eq_some_iff.mp hread
    cases hpair
    obtain ⟨used, rfl, hused⟩ := ih hword
    exact ⟨backslash :: e :: used, rfl, hused⟩
  | case7 => cases h
  | case8 c tail hquote hslash hlow ih =>
    obtain ⟨⟨word, after⟩, hword, hpair⟩ := Option.map_eq_some_iff.mp h
    cases hpair
    obtain ⟨used, rfl, hused⟩ := ih hword
    refine ⟨c :: used, rfl, ?_⟩
    change quoteState (QuoteState.inside.next c) used = .outside
    rw [next_plain ⟨hquote, hslash⟩ (by decide), hused]

theorem balanced_string {found : Text} (h : scan_string text = some (found, rest)) :
    Balanced (quote :: text) rest := by
  obtain ⟨used, rfl, hused⟩ := scan_string_used h
  exact ⟨quote :: used, rfl, hused⟩

theorem expect_some (h : expect c text = some rest) : text = c :: rest := by
  cases text with
  | nil => cases h
  | cons d tail =>
    rw [expect] at h
    split at h
    · rename_i hd
      cases h
      rw [hd]
    · cases h

theorem suffix_numberAfter (minus whole rest : Text) : (numberAfter minus whole rest).2 <:+ rest := by
  have hsuffix : ∀ n m, (rest.drop n).drop m <:+ rest := fun n m =>
    (List.drop_suffix m _).trans (List.drop_suffix n rest)
  unfold numberAfter
  simp only
  split
  · exact hsuffix _ _
  · exact hsuffix _ _

theorem value_numberAfter (minus whole rest : Text) :
    (∃ i, (numberAfter minus whole rest).1 = .int i) ∨
      ∃ literal, (numberAfter minus whole rest).1 = .real literal := by
  unfold numberAfter
  simp only
  split
  · exact Or.inl ⟨_, rfl⟩
  · exact Or.inr ⟨_, rfl⟩

theorem number_some {value : Value} (h : number text = some (value, rest)) :
    rest <:+ text ∧ ((∃ i, value = .int i) ∨ ∃ literal, value = .real literal) := by
  unfold number at h
  simp only at h
  generalize hminus : (if text.head? = some 0x2D then [0x2D] else [] : Text) = minus at h
  generalize hwhole : (if (text.drop minus.length).head? = some 0x30 then [0x30]
    else (text.drop minus.length).takeWhile isDigit) = whole at h
  split at h
  · cases h
  · rw [Option.some_inj] at h
    have hvalue := value_numberAfter minus whole ((text.drop minus.length).drop whole.length)
    have hsuffix := suffix_numberAfter minus whole ((text.drop minus.length).drop whole.length)
    rw [h] at hvalue hsuffix
    exact ⟨hsuffix.trans ((List.drop_suffix _ _).trans (List.drop_suffix _ text)), hvalue⟩

theorem balanced_number {value : Value} (h : scan_number text = some (value, rest)) :
    Balanced text rest ∧ ((∃ i, value = .int i) ∨ ∃ literal, value = .real literal) := by
  obtain ⟨⟨found, left⟩, hnumber, hpair⟩ := Option.map_eq_some_iff.mp h
  cases hpair
  obtain ⟨⟨used, hused⟩, hvalue⟩ := number_some hnumber
  refine ⟨?_, hvalue⟩
  have hplain : Plain used := by
    have hall : Plain (text.takeWhile isNumeric) := plain_takeWhile (by decide) (by decide) text
    intro c hc
    apply hall c
    rw [← hused]
    exact List.mem_append_left _ hc
  have hbalanced := balanced_plain hplain (left ++ text.dropWhile isNumeric)
  rw [← List.append_assoc, hused, List.takeWhile_append_dropWhile] at hbalanced
  exact hbalanced

def isPlain (text : Text) : Bool := text.all fun c => c ≠ quote && c ≠ backslash

theorem plain_of_isPlain (h : isPlain text = true) : Plain text := by
  intro c hc
  have hplain := List.all_eq_true.mp h c hc
  simpa using hplain

theorem plain_keywords : ∀ keyword ∈ keywords, Plain keyword.1 ∧
    ∀ fields, keyword.2 ≠ .obj fields := by
  intro keyword h
  simp only [keywords, List.mem_cons, List.not_mem_nil, or_false] at h
  obtain rfl | rfl | rfl | rfl | rfl | rfl := h <;>
    exact ⟨plain_of_isPlain rfl, fun fields heq => by cases heq⟩

theorem balanced_keyword {value : Value} (h : scan_keyword text = some (value, rest)) :
    Balanced text rest ∧ ∀ fields, value ≠ .obj fields := by
  obtain ⟨keyword, hfind, hpair⟩ := Option.map_eq_some_iff.mp h
  cases hpair
  obtain ⟨hplain, hvalue⟩ := plain_keywords keyword (List.mem_of_find?_eq_some hfind)
  refine ⟨?_, hvalue⟩
  have hword : keyword.1.isPrefixOf text = true := by
    have h := List.find?_some hfind
    exact h
  obtain ⟨after, hafter⟩ := List.isPrefixOf_iff_prefix.mp hword
  rw [← hafter, List.drop_left]
  exact balanced_plain hplain after

theorem balanced_closing {d closing : Fin 0x110000} (hd : d = closing) (hne : closing ≠ quote)
    (after : Text) : Balanced (d :: after) after :=
  balanced_cons (hd ▸ hne) after

/-- Behind one of several there is the end, or a comma and more. -/
theorem balanced_more {α β : Type} {closing : Fin 0x110000} {last value : β}
    {scan : Text → Option (α × Text)} {f : α → β} (hclosing : closing ≠ quote)
    (hscan : ∀ text found rest, scan text = some (found, rest) → Balanced text rest)
    (h : (match skip text with
      | [] => none
      | d :: after =>
        if d = closing then some (last, after)
        else if d = comma then (scan (skip after)).map fun found => (f found.1, found.2)
        else none) = some (value, rest)) : Balanced text rest := by
  refine (balanced_skip text).trans ?_
  split at h
  · cases h
  · rename_i d after hskip
    rw [hskip]
    split at h
    · rename_i hd
      cases h
      exact balanced_closing hd hclosing _
    split at h
    · rename_i hd
      obtain ⟨⟨others, left⟩, hothers, hpair⟩ := Option.map_eq_some_iff.mp h
      cases hpair
      exact (balanced_cons (by rw [hd]; decide) after).trans
        ((balanced_skip after).trans (hscan _ _ _ hothers))
    · cases h

/-- **A reader who has come to the end of a value is outside of strings.** -/
theorem balanced_scan (depth : ℕ) :
    (∀ text value rest, scan_value depth text = some (value, rest) → Balanced text rest) ∧
    (∀ text items rest, scan_items depth text = some (items, rest) → Balanced text rest) ∧
    (∀ text fields rest, scan_fields depth text = some (fields, rest) → Balanced text rest) := by
  induction depth with
  | zero =>
    refine ⟨?_, ?_, ?_⟩
    · intro text value rest h
      cases text <;> cases h
    · intro text items rest h
      cases h
    · intro text fields rest h
      cases h
  | succ depth ih =>
    obtain ⟨ihvalue, ihitems, ihfields⟩ := ih
    refine ⟨?_, ?_, ?_⟩
    · intro text value rest h
      cases text with
      | nil => cases h
      | cons c tail =>
        rw [scan_value] at h
        split at h
        · rename_i hc
          obtain ⟨⟨word, after⟩, hword, hpair⟩ := Option.map_eq_some_iff.mp h
          cases hpair
          rw [hc]
          exact balanced_string hword
        split at h
        · rename_i hquote hc
          refine (balanced_cons hquote tail).trans ((balanced_skip tail).trans ?_)
          split at h
          · cases h
          · rename_i d after hskip
            rw [hskip]
            split at h
            · rename_i hd
              cases h
              exact balanced_closing hd (by decide) _
            · obtain ⟨⟨fields, left⟩, hfields, hpair⟩ := Option.map_eq_some_iff.mp h
              cases hpair
              exact ihfields _ _ _ hfields
        split at h
        · rename_i hquote _ hc
          refine (balanced_cons hquote tail).trans ((balanced_skip tail).trans ?_)
          split at h
          · cases h
          · rename_i d after hskip
            rw [hskip]
            split at h
            · rename_i hd
              cases h
              exact balanced_closing hd (by decide) _
            · obtain ⟨⟨items, left⟩, hitems, hpair⟩ := Option.map_eq_some_iff.mp h
              cases hpair
              exact ihitems _ _ _ hitems
        · obtain hword | ⟨-, hnumber⟩ := Option.or_eq_some_iff.mp h
          · exact (balanced_keyword hword).1
          · exact (balanced_number hnumber).1
    · intro text items rest h
      rw [scan_items] at h
      obtain ⟨⟨first, left⟩, hfirst, hmore⟩ := Option.bind_eq_some_iff.mp h
      exact (ihvalue _ _ _ hfirst).trans (balanced_more (by decide) ihitems hmore)
    · intro text fields rest h
      rw [scan_fields] at h
      obtain ⟨afterQuote, hquote, h⟩ := Option.bind_eq_some_iff.mp h
      obtain ⟨⟨key, afterKey⟩, hkey, h⟩ := Option.bind_eq_some_iff.mp h
      obtain ⟨afterColon, hcolon, h⟩ := Option.bind_eq_some_iff.mp h
      obtain ⟨⟨first, left⟩, hfirst, hmore⟩ := Option.bind_eq_some_iff.mp h
      have hstart : Balanced text left := by
        rw [expect_some hquote]
        refine (balanced_string hkey).trans ((balanced_skip afterKey).trans ?_)
        rw [expect_some hcolon]
        exact (balanced_cons (by decide) afterColon).trans
          ((balanced_skip afterColon).trans (ihvalue _ _ _ hfirst))
      exact hstart.trans (balanced_more (by decide) ihfields hmore)

theorem loads_open (h : quoteState .outside text ≠ .outside) : loads text = none := by
  cases hloads : loads text with
  | none => rfl
  | some value =>
    exfalso
    unfold loads at hloads
    split at hloads
    · cases hloads
    · obtain ⟨⟨found, left⟩, hscan, hend⟩ := Option.bind_eq_some_iff.mp hloads
      simp only at hend
      split at hend
      · rename_i hnil
        have hvalue := (balanced_scan _).1 _ _ _ hscan
        have hleft := balanced_skip left
        rw [hnil] at hleft
        obtain ⟨used, hused, hstate⟩ := (balanced_skip text).trans (hvalue.trans hleft)
        rw [List.append_nil] at hused
        rw [hused] at h
        exact h hstate
      · cases hend

/-! ## What is written is tidy -/

/-- What stands behind the end of a string. -/
def isCloser (c : Fin 0x110000) : Bool :=
  c = comma || c = colon || c = closeBrace || c = closeBracket

/-- Characters at which a reader cuts are within strings, and the end of a string is followed by
punctuation. -/
def Tidy (cut : Fin 0x110000 → Bool) : QuoteState → Text → Prop
  | _, [] => True
  | state, c :: rest =>
    (state ≠ .inside → cut c = false) ∧
      (state = .inside → c = quote → ∀ d ∈ rest.head?, isCloser d = true) ∧
      Tidy cut (state.next c) rest

theorem tidy_append (h : Tidy cut state (text ++ rest)) :
    Tidy cut state text ∧ Tidy cut (quoteState state text) rest := by
  induction text generalizing state with
  | nil => exact ⟨trivial, h⟩
  | cons c text ih =>
    obtain ⟨hcut, hquote, htext⟩ := h
    obtain ⟨hleft, hright⟩ := ih htext
    refine ⟨⟨hcut, ?_, hleft⟩, hright⟩
    intro hstate hc d hd
    cases text with
    | nil => cases hd
    | cons e text => exact hquote hstate hc d hd

theorem tidy_outside (hcut : cut c = false)
    (h : Tidy cut (QuoteState.outside.next c) rest) : Tidy cut .outside (c :: rest) :=
  ⟨fun _ => hcut, fun hstate => absurd hstate (by decide), h⟩

theorem tidy_inside (hc : c ≠ quote)
    (h : Tidy cut (QuoteState.inside.next c) rest) : Tidy cut .inside (c :: rest) :=
  ⟨fun hstate => absurd rfl hstate, fun _ heq => absurd heq hc, h⟩

theorem tidy_plain (hplain : Plain text) (h : Tidy cut .inside rest) :
    Tidy cut .inside (text ++ rest) := by
  induction text with
  | nil => exact h
  | cons c text ih =>
    obtain ⟨hc, htext⟩ := hplain.cons
    apply tidy_inside hc.1
    rw [next_plain hc (by decide)]
    exact ih htext

theorem tidy_between (hplain : Plain text) (hcut : ∀ c ∈ text, cut c = false)
    (h : Tidy cut .outside rest) : Tidy cut .outside (text ++ rest) := by
  induction text with
  | nil => exact h
  | cons c text ih =>
    obtain ⟨hc, htext⟩ := hplain.cons
    apply tidy_outside (hcut c List.mem_cons_self)
    rw [next_plain hc (by decide)]
    exact ih htext fun d hd => hcut d (List.mem_cons_of_mem c hd)

theorem plain_hexChar : ∀ n, n < 16 → hexChar n ≠ quote ∧ hexChar n ≠ backslash := by
  decide

theorem closer_head (hc : isCloser c = true) (rest : Text) :
    ∀ d ∈ (c :: rest).head?, isCloser d = true := by
  intro d hd
  rw [List.head?_cons, Option.mem_def, Option.some_inj] at hd
  rw [← hd]
  exact hc

section Written

variable (hascii : ∀ c, cut c = true → 0x80 ≤ c.val)

include hascii

theorem uncut_of_ascii {c : Fin 0x110000} (h : c.val < 0x80) : cut c = false := by
  rw [Bool.eq_false_iff]
  intro hcut
  have hle := hascii c hcut
  omega

theorem tidy_pair {e : Fin 0x110000} (he : e.val < 0x80) (h : Tidy cut .inside rest) :
    Tidy cut .inside (backslash :: e :: rest) := by
  apply tidy_inside (by decide)
  exact ⟨fun _ => uncut_of_ascii hascii he, fun hstate => absurd hstate (by decide), h⟩

theorem tidy_escapeChar (c : Fin 0x110000) (h : Tidy cut .inside rest) :
    Tidy cut .inside (escapeChar c ++ rest) := by
  unfold escapeChar
  split
  · exact tidy_pair hascii (by decide) h
  · rename_i hquote
    split
    · exact tidy_pair hascii (by decide) h
    · rename_i hslash
      iterate 5
        split
        · exact tidy_pair hascii (by decide) h
      split
      · rename_i hlow
        have hvalue : c.val < 0x20 := hlow
        refine tidy_pair hascii (by decide) (tidy_plain ?_ h)
        intro x hx
        simp only [List.mem_cons, List.not_mem_nil, or_false] at hx
        obtain rfl | rfl | rfl | rfl := hx
        · decide
        · decide
        · exact plain_hexChar _ (by omega)
        · exact plain_hexChar _ (by omega)
      · apply tidy_inside hquote
        rw [next_plain ⟨hquote, hslash⟩ (by decide)]
        exact h

theorem tidy_string (text : Text) (hhead : ∀ d ∈ rest.head?, isCloser d = true)
    (h : Tidy cut .outside rest) : Tidy cut .outside (quote :: (escape text ++ quote :: rest)) := by
  apply tidy_outside (uncut_of_ascii hascii (by decide))
  change Tidy cut .inside _
  induction text with
  | nil => exact ⟨fun hstate => absurd rfl hstate, fun _ _ => hhead, h⟩
  | cons c text ih =>
    unfold escape
    rw [List.flatMap_cons, List.append_assoc]
    exact tidy_escapeChar hascii c ih

theorem tidy_ascii (hplain : Plain text) (htext : ∀ c ∈ text, c.val < 0x80)
    (h : Tidy cut .outside rest) : Tidy cut .outside (text ++ rest) :=
  tidy_between hplain (fun c hc => uncut_of_ascii hascii (htext c hc)) h

theorem tidy_numeric (hall : text.all isNumeric = true) (h : Tidy cut .outside rest) :
    Tidy cut .outside (text ++ rest) := by
  have hplain : Plain text := by
    rw [← List.takeWhile_eq_self_iff.mpr (List.all_eq_true.mp hall)]
    exact plain_takeWhile (by decide) (by decide) text
  refine tidy_ascii hascii hplain ?_ h
  intro c hc
  have hnumeric := List.all_eq_true.mp hall c hc
  unfold isNumeric isDigit at hnumeric
  simp only [Bool.or_eq_true, Bool.and_eq_true, decide_eq_true_eq] at hnumeric
  omega

theorem tidy_word (hplain : isPlain text = true) (htext : (text.all fun c => c.val < 0x80) = true)
    (h : Tidy cut .outside rest) : Tidy cut .outside (text ++ rest) :=
  tidy_ascii hascii (plain_of_isPlain hplain)
    (fun c hc => by simpa using List.all_eq_true.mp htext c hc) h

theorem tidy_real {literal : Text} (hreal : IsReal literal) (h : Tidy cut .outside rest) :
    Tidy cut .outside (literal ++ rest) := by
  obtain hword | ⟨hall, -⟩ := hreal
  · simp only [List.mem_cons, List.not_mem_nil, or_false] at hword
    obtain rfl | rfl | rfl := hword
    · exact tidy_word hascii rfl rfl h
    · exact tidy_word hascii rfl rfl h
    · exact tidy_word hascii rfl rfl h
  · exact tidy_numeric hascii hall h

theorem tidy_mark {c : Fin 0x110000} (hc : c ≠ quote) (hlow : c.val < 0x80)
    (h : Tidy cut .outside rest) : Tidy cut .outside (c :: rest) := by
  apply tidy_outside (uncut_of_ascii hascii hlow)
  rw [QuoteState.next, if_neg hc]
  exact h

mutual

theorem tidy_dumps (value : Value) (hvalue : value.Canonical) (rest : Text)
    (hhead : ∀ d ∈ rest.head?, isCloser d = true) (h : Tidy cut .outside rest) :
    Tidy cut .outside (dumps value ++ rest) := by
  cases value with
  | null => exact tidy_word hascii rfl rfl h
  | bool value =>
    cases value with
    | true | false => exact tidy_word hascii rfl rfl h
  | int value => exact tidy_numeric hascii (intText_numeric value) h
  | real literal => exact tidy_real hascii hvalue h
  | str text =>
    rw [dumps, List.cons_append, List.append_assoc, List.singleton_append]
    exact tidy_string hascii text hhead h
  | arr items =>
    rw [dumps, List.cons_append, List.append_assoc, List.singleton_append]
    apply tidy_mark hascii (by decide) (by decide)
    exact tidy_dumpsItems items hvalue _ (closer_head (by decide) rest)
      (tidy_mark hascii (by decide) (by decide) h)
  | obj fields =>
    rw [dumps, List.cons_append, List.append_assoc, List.singleton_append]
    apply tidy_mark hascii (by decide) (by decide)
    exact tidy_dumpsFields fields hvalue _ (closer_head (by decide) rest)
      (tidy_mark hascii (by decide) (by decide) h)

theorem tidy_dumpsItems (items : Items) (hitems : items.Canonical) (rest : Text)
    (hhead : ∀ d ∈ rest.head?, isCloser d = true) (h : Tidy cut .outside rest) :
    Tidy cut .outside (dumpsItems items ++ rest) := by
  cases items with
  | nil => exact h
  | cons first others =>
    cases others with
    | nil => exact tidy_dumps first hitems.1 rest hhead h
    | cons second others =>
      rw [dumpsItems, List.append_assoc, List.cons_append, List.cons_append]
      apply tidy_dumps first hitems.1 _ (closer_head (by decide) _)
      apply tidy_mark hascii (by decide) (by decide)
      apply tidy_mark hascii (by decide) (by decide)
      exact tidy_dumpsItems (.cons second others) hitems.2 rest hhead h

theorem tidy_dumpsFields (fields : Fields) (hfields : fields.Canonical) (rest : Text)
    (hhead : ∀ d ∈ rest.head?, isCloser d = true) (h : Tidy cut .outside rest) :
    Tidy cut .outside (dumpsFields fields ++ rest) := by
  cases fields with
  | nil => exact h
  | cons key first others =>
    have hkey : ∀ after, Tidy cut .outside after →
        Tidy cut .outside (quote :: (escape key ++ quote :: colon :: space :: after)) := by
      intro after hafter
      apply tidy_string hascii key (closer_head (by decide) _)
      apply tidy_mark hascii (by decide) (by decide)
      exact tidy_mark hascii (by decide) (by decide) hafter
    cases others with
    | nil =>
      rw [dumpsFields, List.cons_append, List.append_assoc, List.cons_append, List.cons_append,
        List.cons_append]
      exact hkey _ (tidy_dumps first hfields.2.1 rest hhead h)
    | cons other second others =>
      rw [dumpsFields, List.cons_append, List.append_assoc, List.cons_append, List.cons_append,
        List.cons_append, List.append_assoc, List.cons_append, List.cons_append]
      apply hkey
      apply tidy_dumps first hfields.2.1 _ (closer_head (by decide) _)
      apply tidy_mark hascii (by decide) (by decide)
      apply tidy_mark hascii (by decide) (by decide)
      exact tidy_dumpsFields (.cons other second others) hfields.2.2 rest hhead h

end

end Written

/-! ## The pieces of a text that is cut -/

def Fields.Named (fields : Fields) : Prop :=
  fields.keys ≠ [] ∧ ∀ key ∈ fields.keys, ∃ c ∈ key.head?, isCloser c = false

theorem mem_keys_add {key other : Text} {first : Value} {fields : Fields} :
    other ∈ (fields.add key first).keys ↔ other = key ∨ other ∈ fields.keys := by
  match fields with
  | .nil => simp [Fields.add, Fields.keys]
  | .cons k value rest =>
    rw [Fields.add]
    split
    · simp [Fields.keys]
    split
    · rename_i hsame
      subst hsame
      simp [Fields.keys]
    · rw [Fields.keys, Fields.keys, List.mem_cons, List.mem_cons, mem_keys_add]
      exact or_left_comm

theorem scan_fields_key {depth : ℕ} {fields : Fields}
    (h : scan_fields depth text = some (fields, rest)) :
    ∃ inner key left, text = quote :: inner ∧ scan_string inner = some (key, left) ∧
      key ∈ fields.keys := by
  cases depth with
  | zero => cases h
  | succ depth =>
    rw [scan_fields] at h
    obtain ⟨inner, hquote, h⟩ := Option.bind_eq_some_iff.mp h
    obtain ⟨⟨key, left⟩, hkey, h⟩ := Option.bind_eq_some_iff.mp h
    obtain ⟨_, -, h⟩ := Option.bind_eq_some_iff.mp h
    obtain ⟨⟨first, _⟩, -, hmore⟩ := Option.bind_eq_some_iff.mp h
    refine ⟨inner, key, left, expect_some hquote, hkey, ?_⟩
    simp only at hmore
    split at hmore
    · cases hmore
    split at hmore
    · cases hmore
      exact List.mem_cons_self
    split at hmore
    · obtain ⟨⟨others, _⟩, -, hpair⟩ := Option.map_eq_some_iff.mp hmore
      cases hpair
      exact List.mem_cons_self
    · cases hmore

theorem mem_keys_dict {key : Text} (fields : Fields) :
    key ∈ fields.dict.keys ↔ key ∈ fields.keys := by
  match fields with
  | .nil => exact Iff.rfl
  | .cons other value rest =>
    rw [Fields.dict, mem_keys_add, mem_keys_dict rest, Fields.keys, List.mem_cons]

/-- A dict that is read is empty, or it has the key that is read first. -/
theorem scan_value_obj {depth : ℕ} {fields : Fields}
    (h : scan_value depth text = some (.obj fields, rest)) :
    ∃ after, text = openBrace :: after ∧ (fields = .nil ∨
      ∃ inner key left, skip after = quote :: inner ∧ scan_string inner = some (key, left) ∧
        key ∈ fields.keys) := by
  cases depth with
  | zero => cases text <;> cases h
  | succ depth =>
    cases text with
    | nil => cases h
    | cons c after =>
      rw [scan_value] at h
      split at h
      · obtain ⟨_, -, hpair⟩ := Option.map_eq_some_iff.mp h
        cases hpair
      split at h
      · rename_i hc
        refine ⟨after, by rw [hc], ?_⟩
        split at h
        · cases h
        · rename_i d tail hskip
          split at h
          · cases h
            exact Or.inl rfl
          · obtain ⟨⟨found, _⟩, hfound, hpair⟩ := Option.map_eq_some_iff.mp h
            cases hpair
            obtain ⟨inner, key, left, htext, hkey, hmem⟩ := scan_fields_key hfound
            exact Or.inr ⟨inner, key, left, hskip.trans htext, hkey, (mem_keys_dict found).mpr hmem⟩
      split at h
      · split at h
        · cases h
        · split at h
          · cases h
          · obtain ⟨_, -, hpair⟩ := Option.map_eq_some_iff.mp h
            cases hpair
      · obtain hword | ⟨-, hnumber⟩ := Option.or_eq_some_iff.mp h
        · exact absurd rfl ((balanced_keyword hword).2 fields)
        · obtain ⟨_, hvalue⟩ | ⟨_, hvalue⟩ := (balanced_number hnumber).2 <;> cases hvalue

theorem tidy_skip (h : Tidy cut .inside text) : Tidy cut .inside (skip text) := by
  obtain ⟨blanks, htext, hplain⟩ := skip_split text
  rw [htext] at h
  have hrest := (tidy_append h).2
  rwa [quoteState_plain (by decide) hplain] at hrest

/-- **A dict that is read from within a string on is no dict of names.** -/
theorem loads_inside {fields : Fields} (htidy : Tidy cut .inside text)
    (h : loads text = some (.obj fields)) : ¬ fields.Named := by
  rintro ⟨hne, hnamed⟩
  unfold loads at h
  split at h
  · cases h
  · obtain ⟨⟨found, left⟩, hscan, hend⟩ := Option.bind_eq_some_iff.mp h
    simp only at hend
    split at hend
    · cases hend
      obtain ⟨after, htext, hfields⟩ := scan_value_obj hscan
      have hopen := tidy_skip htidy
      rw [htext] at hopen
      obtain hnil | ⟨inner, key, _, hinner, hkey, hmem⟩ := hfields
      · apply hne
        rw [hnil]
        rfl
      · have hafter : Tidy cut .inside (quote :: inner) := by
          rw [← hinner]
          exact tidy_skip hopen.2.2
        -- the quote ends the string, so that what follows it begins the key
        obtain ⟨c, hc, hcloser⟩ := hnamed key hmem
        cases inner with
        | nil => cases hkey
        | cons e more =>
          have he : isCloser e = true := hafter.2.1 rfl rfl e rfl
          have hplain : e ≠ quote ∧ e ≠ backslash ∧ ¬ e.val < 0x20 := by
            unfold isCloser at he
            simp only [Bool.or_eq_true, decide_eq_true_eq] at he
            obtain ((rfl | rfl) | rfl) | rfl := he <;> decide
          rw [scan_string.eq_def] at hkey
          simp only at hkey
          rw [if_neg hplain.1, if_neg hplain.2.1, if_neg hplain.2.2] at hkey
          obtain ⟨_, -, hpair⟩ := Option.map_eq_some_iff.mp hkey
          cases hpair
          cases hc
          rw [he] at hcloser
          cases hcloser
    · cases hend

theorem plain_of_cut (hascii : ∀ c, cut c = true → 0x80 ≤ c.val)
    (h : cut c = true) : c ≠ quote ∧ c ≠ backslash := by
  have hle := hascii c h
  constructor
  · rintro rfl
    exact absurd hle (by decide)
  · rintro rfl
    exact absurd hle (by decide)

/-- The pieces of a text, after what was carried over. -/
def piecesFrom (cut : Fin 0x110000 → Bool) : Text → Text → List Text
  | carry, [] => [carry]
  | carry, c :: rest =>
    if cut c then carry :: piecesFrom cut [] rest else piecesFrom cut (carry ++ [c]) rest

/-- Pieces of what is within a string. -/
theorem tidy_pieces {carry : Text} (hascii : ∀ c, cut c = true → 0x80 ≤ c.val)
    (h : Tidy cut .inside (carry ++ text)) : ∀ piece ∈ piecesFrom cut carry text,
      Tidy cut .inside piece := by
  induction text generalizing carry with
  | nil =>
    intro piece hpiece
    rw [piecesFrom, List.mem_singleton] at hpiece
    rw [hpiece]
    exact (tidy_append h).1
  | cons c text ih =>
    intro piece hpiece
    rw [piecesFrom] at hpiece
    split at hpiece
    · rename_i hcut
      obtain ⟨hcarry, hrest⟩ := tidy_append h
      obtain rfl | hpiece := List.mem_cons.mp hpiece
      · exact hcarry
      · have hstate : quoteState .inside carry = .inside := by
          by_contra hne
          have huncut := hrest.1 hne
          rw [hcut] at huncut
          cases huncut
        have htail := hrest.2.2
        rw [hstate, next_plain (plain_of_cut hascii hcut) (by decide)] at htail
        exact ih (by rwa [List.nil_append]) piece hpiece
    · refine ih ?_ piece hpiece
      rwa [List.append_assoc, List.singleton_append]

/-- **The pieces of a text that is cut** end within a string, or begin within one. -/
theorem pieces_cut {carry : Text} (hascii : ∀ c, cut c = true → 0x80 ≤ c.val)
    (h : Tidy cut .outside (carry ++ text)) (hcut : ∃ c ∈ text, cut c = true) :
    ∀ piece ∈ piecesFrom cut carry text,
      quoteState .outside piece = .inside ∨ Tidy cut .inside piece := by
  induction text generalizing carry with
  | nil =>
    obtain ⟨c, hc, -⟩ := hcut
    cases hc
  | cons c text ih =>
    intro piece hpiece
    rw [piecesFrom] at hpiece
    split at hpiece
    · rename_i hc
      have hrest := (tidy_append h).2
      have hstate : quoteState .outside carry = .inside := by
        by_contra hne
        have huncut := hrest.1 hne
        rw [hc] at huncut
        cases huncut
      obtain rfl | hpiece := List.mem_cons.mp hpiece
      · exact Or.inl hstate
      · have htail := hrest.2.2
        rw [hstate, next_plain (plain_of_cut hascii hc) (by decide)] at htail
        exact Or.inr (tidy_pieces hascii (by rwa [List.nil_append]) piece hpiece)
    · rename_i hc
      refine ih ?_ ?_ piece hpiece
      · rwa [List.append_assoc, List.singleton_append]
      · obtain ⟨d, hd, hdcut⟩ := hcut
        obtain rfl | hd := List.mem_cons.mp hd
        · exact absurd hdcut hc
        · exact ⟨d, hd, hdcut⟩

theorem pieces_uncut (carry : Text) (h : ∀ c ∈ text, cut c = false) :
    piecesFrom cut carry text = [carry ++ text] := by
  induction text generalizing carry with
  | nil => rw [piecesFrom, List.append_nil]
  | cons c text ih =>
    rw [piecesFrom, h c List.mem_cons_self, if_neg (by decide),
      ih _ fun d hd => h d (List.mem_cons_of_mem c hd), List.append_assoc, List.singleton_append]

/-! ## The characters of what is written -/

mutual

/-- The strings of a value, keys included. -/
def Value.texts : Value → List Text
  | .null => []
  | .bool _ => []
  | .int _ => []
  | .real _ => []
  | .str text => [text]
  | .arr items => items.texts
  | .obj fields => fields.texts

def Items.texts : Items → List Text
  | .nil => []
  | .cons first rest => first.texts ++ rest.texts

def Fields.texts : Fields → List Text
  | .nil => []
  | .cons key first rest => key :: (first.texts ++ rest.texts)

end

/-- What is written of strings: its characters are printable, and beyond ASCII the strings'. -/
structure Written (word : Text) (texts : List Text) : Prop where
  printable : ∀ c ∈ word, 0x20 ≤ c.val
  beyond : ∀ c : Fin 0x110000, 0x80 ≤ c.val → (c ∈ word ↔ ∃ text ∈ texts, c ∈ text)

theorem Written.append {word other : Text} {texts more : List Text} (h : Written word texts)
    (hother : Written other more) : Written (word ++ other) (texts ++ more) where
  printable c hc := (List.mem_append.mp hc).elim (h.printable c) (hother.printable c)
  beyond c hc := by
    simp only [List.mem_append, h.beyond c hc, hother.beyond c hc, or_and_right, exists_or]

theorem Written.ascii {word : Text}
    (h : (word.all fun c => 0x20 ≤ c.val && c.val < 0x80) = true) : Written word [] := by
  simp only [List.all_eq_true, Bool.and_eq_true, decide_eq_true_eq] at h
  refine ⟨fun c hc => (h c hc).1, fun c hc => ⟨fun hmem => ?_, ?_⟩⟩
  · have hlow := (h c hmem).2
    omega
  · rintro ⟨text, htext, _⟩
    cases htext

theorem Written.cons {word : Text} {texts : List Text} (h : Written word texts)
    (hc : (0x20 ≤ c.val && c.val < 0x80) = true) : Written (c :: word) texts := by
  have hfirst : Written [c] [] := .ascii (by simpa using hc)
  exact hfirst.append h

theorem Written.listed {word other : Text} {texts more : List Text} (h : Written word texts)
    (hother : Written other more) : Written (word ++ comma :: space :: other) (texts ++ more) :=
  h.append (.cons (.cons hother rfl) rfl)

theorem Written.enclosed {word : Text} {texts : List Text} {d : Fin 0x110000}
    (h : Written word texts) (hc : (0x20 ≤ c.val && c.val < 0x80) = true)
    (hd : (0x20 ≤ d.val && d.val < 0x80) = true) : Written (c :: (word ++ [d])) texts := by
  have hlast : Written [d] [] := .ascii (by simpa using hd)
  have hend := h.append hlast
  rw [List.append_nil] at hend
  exact hend.cons hc

theorem written_numeric {word : Text} (hall : word.all isNumeric = true) : Written word [] := by
  refine .ascii (List.all_eq_true.mpr fun c hc => ?_)
  have hc := List.all_eq_true.mp hall c hc
  unfold isNumeric isDigit at hc
  simp only [Bool.or_eq_true, Bool.and_eq_true, decide_eq_true_eq] at hc ⊢
  omega

theorem escapeChar_ascii (h : c.val < 0x80) :
    ((escapeChar c).all fun d => 0x20 ≤ d.val && d.val < 0x80) = true := by
  have hhex : ∀ n, n < 16 → (0x20 ≤ (hexChar n).val && (hexChar n).val < 0x80) = true := by decide
  unfold escapeChar
  iterate 7
    split
    · rfl
  split
  · rename_i hlow
    simp only [List.all_cons, hhex _ (Nat.mod_lt _ (by decide)),
      hhex (c.val / 16) (Nat.div_lt_of_lt_mul (by omega))]
    rfl
  · rename_i hlow
    simpa using ⟨Nat.le_of_not_lt hlow, h⟩

theorem escapeChar_beyond (h : 0x80 ≤ c.val) : escapeChar c = [c] := by
  have hquote : c ≠ quote := by
    rintro rfl
    exact absurd h (by decide)
  have hslash : c ≠ backslash := by
    rintro rfl
    exact absurd h (by decide)
  unfold escapeChar
  rw [if_neg hquote, if_neg hslash, if_neg (by omega), if_neg (by omega), if_neg (by omega),
    if_neg (by omega), if_neg (by omega), if_neg (by omega)]

theorem written_escape (text : Text) : Written (escape text) [text] := by
  induction text with
  | nil => exact ⟨by simp [escape], by simp [escape]⟩
  | cons d text ih =>
    have hsplit : Written (escapeChar d ++ escape text) [[d], text] := by
      by_cases hd : d.val < 0x80
      · have hascii := (Written.ascii (escapeChar_ascii hd)).append ih
        refine ⟨hascii.printable, fun c hc => (hascii.beyond c hc).trans ?_⟩
        have hne : c ≠ d := by
          rintro rfl
          omega
        simp [hne]
      · have hprintable : 0x20 ≤ d.val := by omega
        have hfirst : Written [d] [[d]] := ⟨by simpa using hprintable, by simp⟩
        rw [escapeChar_beyond (by omega)]
        exact hfirst.append ih
    exact ⟨hsplit.printable, fun c hc => (hsplit.beyond c hc).trans (by simp)⟩

mutual

theorem written_dumps (value : Value) (h : value.Canonical) :
    Written (dumps value) value.texts := by
  cases value with
  | null => exact .ascii rfl
  | bool value =>
    cases value with
    | true => exact .ascii rfl
    | false => exact .ascii rfl
  | int value => exact written_numeric (intText_numeric value)
  | real literal =>
    obtain hword | ⟨hall, -⟩ := h
    · simp only [List.mem_cons, List.not_mem_nil, or_false] at hword
      obtain rfl | rfl | rfl := hword
      · exact .ascii rfl
      · exact .ascii rfl
      · exact .ascii rfl
    · exact written_numeric hall
  | str text => exact (written_escape text).enclosed rfl rfl
  | arr items => exact (written_dumpsItems items h).enclosed rfl rfl
  | obj fields => exact (written_dumpsFields fields h).enclosed rfl rfl

theorem written_dumpsItems (items : Items) (h : items.Canonical) :
    Written (dumpsItems items) items.texts := by
  cases items with
  | nil => exact .ascii rfl
  | cons first others =>
    have hfirst := written_dumps first h.1
    cases others with
    | nil =>
      rw [Items.texts, Items.texts, List.append_nil]
      exact hfirst
    | cons second others =>
      have hrest := written_dumpsItems (.cons second others) h.2
      exact hfirst.listed hrest

theorem written_dumpsFields (fields : Fields) (h : fields.Canonical) :
    Written (dumpsFields fields) fields.texts := by
  cases fields with
  | nil => exact .ascii rfl
  | cons key first others =>
    have hkey := written_escape key
    have hfirst := written_dumps first h.2.1
    cases others with
    | nil =>
      rw [Fields.texts, Fields.texts, List.append_nil]
      exact .cons (hkey.append (.cons (.cons (.cons hfirst rfl) rfl) rfl)) rfl
    | cons other second others =>
      have hrest := written_dumpsFields (.cons other second others) h.2.2
      exact .cons (hkey.append (.cons (.cons (.cons (hfirst.listed hrest) rfl) rfl) rfl)) rfl

end

theorem mem_dumps_iff {value : Value} (h : value.Canonical)
    (hc : 0x80 ≤ c.val) : c ∈ dumps value ↔ ∃ text ∈ value.texts, c ∈ text :=
  (written_dumps value h).beyond c hc

/-! ## Sorted dicts -/

theorem canonical_add {key : Text} {first : Value} {fields : Fields} (hfirst : first.Canonical)
    (h : fields.Canonical) : (fields.add key first).Canonical := by
  match fields, h with
  | .nil, _ => exact ⟨fun other hother => (List.not_mem_nil hother).elim, hfirst, trivial⟩
  | .cons other value rest, h =>
    rw [Fields.add]
    split
    · rename_i hlt
      refine ⟨?_, hfirst, h⟩
      intro k hk
      obtain rfl | hk := List.mem_cons.mp hk
      · exact hlt
      · exact lt_trans hlt (h.1 k hk)
    split
    · exact h
    · rename_i hlt hne
      refine ⟨?_, h.2.1, canonical_add hfirst h.2.2⟩
      intro k hk
      obtain rfl | hk := mem_keys_add.mp hk
      · exact lt_of_le_of_ne (not_lt.mp hlt) (Ne.symm hne)
      · exact h.1 k hk

/-- The values of the fields are canonical. -/
def Fields.Each : Fields → Prop
  | .nil => True
  | .cons _ first rest => first.Canonical ∧ rest.Each

theorem canonical_dict : ∀ fields : Fields, fields.Each → fields.dict.Canonical
  | .nil, _ => trivial
  | .cons _ _ rest, h => canonical_add h.1 (canonical_dict rest h.2)

end ClaudeCodeBridge.Program.JsonCode
