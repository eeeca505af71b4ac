import Mathlib.Data.List.TakeWhile
import ClaudeCodeBridge.Program.Numerals
import ClaudeCodeBridge.Model.LayoutText

/-!
# Tokens of layouts

A leaf that is parsed is well formed (`wellFormed_of_parse_leaf`), and a well-formed leaf is
rendered as one token, which is read back as the leaf (`tokenize_leaf`, `parse_leaf_render`).  A
rendered layout has the tokens of its leaves with the separators and parentheses between them
(`tokenize_render`).
-/

set_option autoImplicit false

namespace ClaudeCodeBridge.Analysis.LayoutText

open Program
open Model.LayoutText
open Model.Relay (strip isSpace strip_eq_self)
open Model.JobEvents (isLetter isUpper)
open Model.ReloadPatch (LayoutLeaf LayoutNode BranchKind render_child)

variable {decimals : Decimals} {text rest buf : Text}

def numeral (n : ℕ) : Text := asciiText (toString n)

theorem numeral_eq (n : ℕ) : numeral n = digitsOf n := by
  unfold numeral asciiText digitsOf
  rw [Nat.toString_eq_ofList_toDigits, String.toList_ofList]

variable {n : ℕ} {c : Fin 0x110000}

theorem isDigit_of_mem_numeral (h : c ∈ numeral n) : isDigit c = true := by
  rw [numeral_eq] at h
  have hdigit := digit_of_mem_digitsOf h
  unfold isDigit
  simp only [Bool.and_eq_true, decide_eq_true_iff]
  exact hdigit

theorem numeral_ne_nil (n : ℕ) : numeral n ≠ [] := by
  rw [numeral_eq]
  exact digitsOf_ne_nil n

theorem value_numeral (decimals : Decimals) (n : ℕ) :
    (numeral n).foldl (fun m c => 10 * m + (decimals.value c).getD 0) 0 = n := by
  have hvalue : ∀ c ∈ digitsOf n, ∀ m,
      10 * m + (decimals.value c).getD 0 = 10 * m + (c.val - 48) := by
    intro c hc m
    have hdigit := digit_of_mem_digitsOf hc
    rw [decimals.ascii c hdigit.1 hdigit.2, Option.getD_some]
  rw [numeral_eq, List.foldl_ext _ _ 0 fun m c hc => hvalue c hc m]
  exact digitsValue_digitsOf n

theorem head_numeral (h : 0 < n) : ∃ c digits, numeral n = c :: digits ∧ c.val ≠ 48 := by
  rw [numeral_eq]
  exact head_digitsOf h

theorem foldl_lt (decimals : Decimals) (digits : Text) (m : ℕ) :
    digits.foldl (fun m c => 10 * m + (decimals.value c).getD 0) m <
      (m + 1) * 10 ^ digits.length := by
  induction digits generalizing m with
  | nil => simp
  | cons c digits ih =>
    have hc : (decimals.value c).getD 0 < 10 := by
      cases hget : decimals.value c with
      | none => decide
      | some n => exact decimals.lt_ten c n hget
    calc
      _ < (10 * m + (decimals.value c).getD 0 + 1) * 10 ^ digits.length := ih _
      _ ≤ (10 * (m + 1)) * 10 ^ digits.length := Nat.mul_le_mul_right _ (by omega)
      _ = (m + 1) * 10 ^ (digits.length + 1) := by ring

theorem int_of_numeral (h : n < 10 ^ max_str_digits) :
    int_of_digits decimals (numeral n) = .ok n := by
  have hlength : (numeral n).length ≤ max_str_digits := by
    rw [numeral_eq, digitsOf, List.length_map,
      Nat.length_toDigits_le_iff (by omega) (by decide)]
    exact h
  unfold int_of_digits
  rw [if_neg (by omega), value_numeral]

variable {digits : Text}

theorem int_of_digits_lt (h : int_of_digits decimals digits = .ok n) : n < 10 ^ max_str_digits := by
  unfold int_of_digits at h
  split at h
  · cases h
  · rename_i hlength
    cases h
    have hlt := foldl_lt decimals digits 0
    rw [Nat.zero_add, Nat.one_mul] at hlt
    exact lt_of_lt_of_le hlt (Nat.pow_le_pow_right (by omega) (by omega))

theorem int_of_digits_pos (hc : isDigit c = true)
    (hzero : c.val ≠ 48) (h : int_of_digits decimals (c :: digits) = .ok n) : 0 < n := by
  have hmono : ∀ (digits : Text) (m : ℕ), 0 < m →
      0 < digits.foldl (fun m c => 10 * m + (decimals.value c).getD 0) m := by
    intro digits
    induction digits with
    | nil => exact fun m hm => hm
    | cons d digits ih =>
      exact fun m hm => ih (10 * m + (decimals.value d).getD 0) (by omega)
  unfold int_of_digits at h
  split at h
  · cases h
  · cases h
    rw [List.foldl_cons]
    apply hmono
    unfold isDigit at hc
    simp only [Bool.and_eq_true, decide_eq_true_iff] at hc
    have hval : (decimals.value c).getD 0 = c.val - 48 := by
      rw [decimals.ascii c hc.1 hc.2, Option.getD_some]
    omega

theorem int_or_some {α : Type} {default : α} {of_int : ℕ → α} {result : α} :
    int_or decimals (some digits) default of_int = .ok result ↔
      ∃ n, int_of_digits decimals digits = .ok n ∧ of_int n = result := by
  unfold int_or
  simp only
  cases int_of_digits decimals digits with
  | error error => simp [Except.map]
  | ok n => simp [Except.map]

structure WellFormed (leaf : LayoutLeaf) : Prop where
  name_head : ∃ c rest, leaf.name = c :: rest ∧ isLetter c = true
  name_chars : ∀ c ∈ leaf.name, isLeafChar c = true
  name_length : leaf.name.length ≤ 64
  provider : ∀ provider, leaf.provider = some provider →
    provider ≠ [] ∧ ∀ c ∈ provider, isProviderChar c = true
  worktree : leaf.worktree = true → leaf.provider ≠ none
  weight_pos : 0 < leaf.weight
  weight_lt : leaf.weight < 10 ^ max_str_digits
  percent_lt : ∀ percent, leaf.percent = some percent → percent < 10 ^ max_str_digits

theorem match_provider_chars {provider : Text} {worktree : Bool}
    (h : (match_provider text).1 = some (provider, worktree)) :
    provider ≠ [] ∧ ∀ c ∈ provider, isProviderChar c = true := by
  unfold match_provider at h
  cases hafter : after_char 0x3A text with
  | none =>
    rw [hafter] at h
    cases h
  | some rest =>
    rw [hafter] at h
    simp only at h
    split at h
    · cases h
    · rename_i hne
      cases h
      exact ⟨hne, fun c hc => List.mem_takeWhile_imp hc⟩

theorem match_weight_digits {weight : Text} (h : (match_weight text).1 = some weight) :
    ∃ c digits, weight = c :: digits ∧ isDigit c = true ∧ c.val ≠ 48 := by
  unfold match_weight at h
  cases hafter : after_char opening text with
  | none =>
    rw [hafter] at h
    cases h
  | some rest =>
    rw [hafter] at h
    simp only at h
    split at h
    · cases h
    · rename_i hhead
      have hsome : weight = rest.takeWhile isDigit := by
        cases hrest : (rest.dropWhile isDigit).dropWhile isSpace with
        | nil =>
          rw [hrest] at h
          cases h
        | cons c after =>
          rw [hrest] at h
          simp only at h
          split at h
          · cases h
            rfl
          · cases h
      cases hdigits : rest.takeWhile isDigit with
      | nil =>
        rw [hdigits] at hhead
        exact absurd rfl hhead
      | cons c digits =>
        have hc : isDigit c = true :=
          List.mem_takeWhile_imp (l := rest) (hdigits ▸ List.mem_cons_self)
        rw [hdigits] at hhead
        refine ⟨c, digits, hsome.trans hdigits, hc, fun hzero => hhead ?_⟩
        rw [List.head?_cons, Option.all_some, decide_eq_true_iff]
        exact hzero

variable {node : LayoutNode}

theorem wellFormed_of_parse_leaf {token : Text}
    (h : parse_leaf decimals token = .ok node) : ∃ item, node = .leaf item ∧ WellFormed item := by
  unfold parse_leaf at h
  simp only at h
  cases hpercent : match_percent decimals
      (match_weight (match_provider (token.dropWhile isLeafChar)).2).2 with
  | none =>
    rw [hpercent] at h
    cases h
  | some percent =>
    rw [hpercent] at h
    simp only at h
    split at h
    · cases h
    · rename_i hname
      rw [Bool.or_eq_true, not_or, decide_eq_true_iff] at hname
      obtain ⟨weight, hweight, h⟩ := bind_ok.mp h
      obtain ⟨percent_value, hvalue, h⟩ := bind_ok.mp h
      cases h
      have hpos : 0 < weight ∧ weight < 10 ^ max_str_digits := by
        cases hdigits : (match_weight (match_provider (token.dropWhile isLeafChar)).2).1 with
        | none =>
          rw [hdigits] at hweight
          cases hweight
          exact ⟨one_pos, Nat.one_lt_pow (by decide) (by decide)⟩
        | some digits =>
          rw [hdigits, int_or_some] at hweight
          obtain ⟨c, rest, rfl, hc, hzero⟩ := match_weight_digits hdigits
          obtain ⟨n, hint, rfl⟩ := hweight
          exact ⟨int_of_digits_pos hc hzero hint, int_of_digits_lt hint⟩
      refine ⟨_, rfl, ?_⟩
      constructor
      · cases hhead : token.takeWhile isLeafChar with
        | nil =>
          rw [hhead] at hname
          exact absurd rfl hname.1
        | cons c rest =>
          rw [hhead] at hname
          refine ⟨c, rest, rfl, ?_⟩
          have hletter := hname.1
          rw [List.head?_cons, Option.all_some, Bool.not_eq_true', Bool.not_eq_false] at hletter
          exact hletter
      · exact fun c hc => List.mem_takeWhile_imp hc
      · exact Nat.le_of_not_lt hname.2
      · intro provider hprovider
        obtain ⟨⟨_, worktree⟩, hmatch, rfl⟩ := Option.map_eq_some_iff.mp hprovider
        exact match_provider_chars hmatch
      · intro hworktree hnone
        rw [Option.map_eq_none_iff] at hnone
        simp only [hnone] at hworktree
        cases hworktree
      · exact hpos.1
      · exact hpos.2
      · intro n hn
        simp only at hn
        subst hn
        cases percent with
        | none => cases hvalue
        | some digits =>
          obtain ⟨m, hint, hm⟩ := int_or_some.mp hvalue
          rw [← Option.some_inj.mp hm]
          exact int_of_digits_lt hint

theorem span_eq {p : Fin 0x110000 → Bool} (htext : ∀ c ∈ text, p c = true)
    (hrest : ∀ c ∈ rest.head?, p c = false) :
    (text ++ rest).takeWhile p = text ∧ (text ++ rest).dropWhile p = rest := by
  rw [List.takeWhile_append_of_pos htext, List.dropWhile_append_of_pos htext]
  cases rest with
  | nil => simp
  | cons c rest =>
    have hc := hrest c rfl
    rw [List.takeWhile_cons, List.dropWhile_cons, hc]
    simp

theorem isSpace_of_isProviderChar (h : isProviderChar c = true) : isSpace c = false := by
  unfold isProviderChar isLetter isUpper isDigit at h
  simp only [Bool.or_eq_true, Bool.and_eq_true, decide_eq_true_iff] at h
  unfold isSpace
  simp only [Bool.or_eq_false_iff, Bool.and_eq_false_iff, decide_eq_false_iff_not]
  omega

theorem isProviderChar_of_isDigit (h : isDigit c = true) : isProviderChar c = true := by
  unfold isProviderChar
  rw [h]
  simp

theorem isSpace_of_isLeafChar (h : isLeafChar c = true) : isSpace c = false := by
  unfold isLeafChar at h
  rw [Bool.or_eq_true, decide_eq_true_iff] at h
  obtain h | h := h
  · exact isSpace_of_isProviderChar h
  · unfold isSpace
    simp only [h, Bool.or_eq_false_iff, Bool.and_eq_false_iff, decide_eq_false_iff_not]
    omega

theorem dropWhile_space (h : isSpace c = false) (rest : Text) :
    (c :: rest).dropWhile isSpace = c :: rest := by
  rw [List.dropWhile_cons, h]
  rfl

theorem after_char_self {d : Fin 0x110000} (hc : isSpace c = false) (hd : isSpace d = false)
    (rest : Text) : after_char c (c :: d :: rest) = some (d :: rest) := by
  unfold after_char
  rw [dropWhile_space hc]
  simp only [if_true]
  rw [dropWhile_space hd]

theorem after_char_ne {d : Fin 0x110000} (hd : isSpace d = false) (hne : d ≠ c) (rest : Text) :
    after_char c (d :: rest) = none := by
  unfold after_char
  rw [dropWhile_space hd]
  simp only [if_neg hne]

/-- The end of a rendered leaf: its percentage. -/
def percentText (leaf : LayoutLeaf) : Text :=
  (leaf.percent.map fun percent => asciiText "@" ++ numeral percent).getD []

def weightText (leaf : LayoutLeaf) : Text :=
  (if leaf.weight = 1 then [] else asciiText "(" ++ numeral leaf.weight ++ asciiText ")") ++
    percentText leaf

def worktreeText (leaf : LayoutLeaf) : Text :=
  (if leaf.worktree then asciiText "(worktree)" else []) ++ weightText leaf

def providerText (leaf : LayoutLeaf) : Text :=
  match leaf.provider with
  | none => weightText leaf
  | some provider => asciiText ":" ++ provider ++ worktreeText leaf

theorem render_eq (leaf : LayoutLeaf) : leaf.render = leaf.name ++ providerText leaf := by
  unfold LayoutLeaf.render providerText worktreeText weightText percentText numeral
  cases leaf.provider with
  | none | some provider => simp [List.append_assoc]

theorem ascii_opening : asciiText "(" = [opening] := by decide

theorem ascii_closing : asciiText ")" = [closing] := by decide

theorem ascii_at : asciiText "@" = [0x40] := by decide

theorem ascii_colon : asciiText ":" = [0x3A] := by decide

theorem ascii_worktree :
    asciiText "(worktree)" = opening :: (asciiText "worktree" ++ [closing]) := by
  decide

variable {leaf : LayoutLeaf}

theorem head_percentText (h : c ∈ (percentText leaf).head?) : c = 0x40 := by
  unfold percentText at h
  cases hpercent : leaf.percent with
  | none =>
    rw [hpercent] at h
    cases h
  | some percent =>
    rw [hpercent, Option.map_some, Option.getD_some, ascii_at] at h
    cases h
    rfl

theorem head_weightText (h : c ∈ (weightText leaf).head?) : c = opening ∨ c = 0x40 := by
  unfold weightText at h
  split at h
  · exact Or.inr (head_percentText h)
  · rw [ascii_opening] at h
    cases h
    exact Or.inl rfl

theorem head_worktreeText (h : c ∈ (worktreeText leaf).head?) : c = opening ∨ c = 0x40 := by
  unfold worktreeText at h
  split at h
  · rw [ascii_worktree] at h
    cases h
    exact Or.inl rfl
  · exact head_weightText h

theorem head_providerText (h : c ∈ (providerText leaf).head?) : isLeafChar c = false := by
  unfold providerText at h
  cases hprovider : leaf.provider with
  | none =>
    rw [hprovider] at h
    obtain rfl | rfl := head_weightText h <;> decide
  | some provider =>
    rw [hprovider, ascii_colon] at h
    cases h
    decide

theorem match_percentText :
    match_percent decimals (percentText leaf) = some (leaf.percent.map numeral) := by
  unfold percentText match_percent
  cases leaf.percent with
  | none => rfl
  | some percent =>
    obtain ⟨c, digits, hdigits⟩ := List.exists_cons_of_ne_nil (numeral_ne_nil percent)
    have hc : isSpace c = false := by
      apply isSpace_of_isProviderChar
      apply isProviderChar_of_isDigit
      apply isDigit_of_mem_numeral (n := percent)
      rw [hdigits]
      exact List.mem_cons_self
    have hall : (numeral percent).all fun c => (decimals.value c).isSome := by
      rw [List.all_eq_true]
      intro d hd
      have hdigit := isDigit_of_mem_numeral hd
      unfold isDigit at hdigit
      simp only [Bool.and_eq_true, decide_eq_true_iff] at hdigit
      rw [decimals.ascii d hdigit.1 hdigit.2]
      rfl
    rw [Option.map_some, Option.getD_some, ascii_at, Option.map_some, if_neg (by simp)]
    rw [hdigits] at hall ⊢
    rw [List.singleton_append, after_char_self (by decide) hc]
    simp only
    rw [if_pos ⟨by simp, hall⟩]

theorem match_weightText (h : 0 < leaf.weight) :
    match_weight (weightText leaf) =
      (if leaf.weight = 1 then none else some (numeral leaf.weight), percentText leaf) := by
  unfold weightText match_weight
  by_cases hone : leaf.weight = 1
  · rw [if_pos hone, if_pos hone, List.nil_append]
    cases hpercent : percentText leaf with
    | nil => rfl
    | cons c rest =>
      have hc := head_percentText (show c ∈ (percentText leaf).head? by rw [hpercent]; rfl)
      subst hc
      rw [after_char_ne (by decide) (by decide)]
  · obtain ⟨c, digits, hdigits, hzero⟩ := head_numeral h
    have hchars : ∀ d ∈ numeral leaf.weight, isDigit d = true :=
      fun d hd => isDigit_of_mem_numeral hd
    have hc : isSpace c = false := by
      apply isSpace_of_isProviderChar
      apply isProviderChar_of_isDigit
      apply hchars
      rw [hdigits]
      exact List.mem_cons_self
    have hends : ∀ d ∈ (closing :: percentText leaf).head?, isDigit d = false := by
      intro d hd
      cases hd
      decide
    have hspan := span_eq hchars hends
    rw [if_neg hone, if_neg hone, ascii_opening, ascii_closing, List.append_assoc,
      List.append_assoc, List.singleton_append, List.singleton_append]
    rw [hdigits] at hspan ⊢
    rw [List.cons_append, after_char_self (by decide) hc]
    simp only
    rw [← List.cons_append, hspan.1, hspan.2, List.head?_cons, Option.all_some,
      decide_eq_false hzero, dropWhile_space (by decide)]
    rfl

theorem worktree_head :
    ∃ c word, asciiText "worktree" = c :: word ∧ isSpace c = false ∧ isDigit c = false := by
  have hhead : (asciiText "worktree").head?.any fun c => !isSpace c && !isDigit c := by
    decide
  cases hword : asciiText "worktree" with
  | nil =>
    rw [hword] at hhead
    cases hhead
  | cons c word =>
    rw [hword, List.head?_cons, Option.any_some, Bool.and_eq_true, Bool.not_eq_true',
      Bool.not_eq_true'] at hhead
    exact ⟨c, word, rfl, hhead⟩

theorem match_worktreeText (h : 0 < leaf.weight) :
    match_worktree (worktreeText leaf) = (leaf.worktree, weightText leaf) := by
  obtain ⟨c, word, hword, hc, hdigit⟩ := worktree_head
  unfold worktreeText match_worktree
  cases leaf.worktree with
  | true =>
    have hafter : after_word (c :: word) (c :: word ++ (closing :: weightText leaf)) =
        some (closing :: weightText leaf) := by
      unfold after_word
      rw [if_pos (List.isPrefixOf_iff_prefix.mpr (List.prefix_append _ _)), List.drop_left]
    rw [if_pos rfl, ascii_worktree, hword, List.cons_append, List.append_assoc,
      List.singleton_append, List.cons_append, after_char_self (by decide) hc, Option.bind_some,
      ← List.cons_append, hafter]
    simp only
    rw [dropWhile_space (by decide)]
    simp only [if_true]
  | false =>
    rw [if_neg (by decide), List.nil_append]
    have hnone : (after_char opening (weightText leaf)).bind (after_word (asciiText "worktree")) =
        none := by
      by_cases hone : leaf.weight = 1
      · have htext : weightText leaf = percentText leaf := by
          unfold weightText
          rw [if_pos hone, List.nil_append]
        rw [htext]
        cases hpercent : percentText leaf with
        | nil => rfl
        | cons d rest =>
          have hd := head_percentText (show d ∈ (percentText leaf).head? by rw [hpercent]; rfl)
          subst hd
          rw [after_char_ne (by decide) (by decide)]
          rfl
      · obtain ⟨d, digits, hdigits, -⟩ := head_numeral h
        have hd := isDigit_of_mem_numeral (n := leaf.weight) (hdigits ▸ List.mem_cons_self)
        have hspace := isSpace_of_isProviderChar (isProviderChar_of_isDigit hd)
        have hne : (c == d) = false := by
          rw [beq_eq_false_iff_ne]
          rintro rfl
          rw [hdigit] at hd
          cases hd
        unfold weightText
        rw [if_neg hone, ascii_opening, hdigits, List.append_assoc, List.append_assoc,
          List.singleton_append, List.cons_append, after_char_self (by decide) hspace,
          Option.bind_some, hword]
        unfold after_word
        rw [if_neg]
        rw [List.isPrefixOf, hne]
        simp
    rw [hnone]

theorem match_providerText (h : WellFormed leaf) :
    match_provider (providerText leaf) =
      (leaf.provider.map fun provider => (provider, leaf.worktree), weightText leaf) := by
  unfold providerText match_provider
  cases hprovider : leaf.provider with
  | none =>
    have hnone : after_char 0x3A (weightText leaf) = none := by
      cases htext : weightText leaf with
      | nil => rfl
      | cons c rest =>
        obtain rfl | rfl := head_weightText (show c ∈ (weightText leaf).head? by rw [htext]; rfl)
        · rw [after_char_ne (by decide) (by decide)]
        · rw [after_char_ne (by decide) (by decide)]
    simp only
    rw [hnone]
    rfl
  | some provider =>
    obtain ⟨hne, hchars⟩ := h.provider provider hprovider
    have hends : ∀ c ∈ (worktreeText leaf).head?, isProviderChar c = false := by
      intro c hc
      obtain rfl | rfl := head_worktreeText hc <;> decide
    have hspan := span_eq hchars hends
    obtain ⟨c, rest, rfl⟩ := List.exists_cons_of_ne_nil hne
    have hc := isSpace_of_isProviderChar (hchars c List.mem_cons_self)
    simp only
    rw [ascii_colon, List.append_assoc, List.singleton_append, List.cons_append,
      after_char_self (by decide) hc]
    simp only
    rw [← List.cons_append, hspan.1, hspan.2, if_neg (by simp), match_worktreeText h.weight_pos]
    rfl

theorem parse_leaf_render (h : WellFormed leaf) :
    parse_leaf decimals leaf.render = .ok (.leaf leaf) := by
  have hspan : (leaf.name ++ providerText leaf).takeWhile isLeafChar = leaf.name ∧
      (leaf.name ++ providerText leaf).dropWhile isLeafChar = providerText leaf :=
    span_eq h.name_chars fun c hc => head_providerText hc
  obtain ⟨c, rest, hname, hletter⟩ := h.name_head
  have hweight : int_or decimals (if leaf.weight = 1 then none else some (numeral leaf.weight)) 1
      id = .ok leaf.weight := by
    by_cases hone : leaf.weight = 1
    · rw [if_pos hone, hone]
      rfl
    · rw [if_neg hone, int_or_some]
      exact ⟨leaf.weight, int_of_numeral h.weight_lt, rfl⟩
  have hpercent : int_or decimals (leaf.percent.map numeral) none some = .ok leaf.percent := by
    cases hvalue : leaf.percent with
    | none => rfl
    | some percent =>
      rw [Option.map_some, int_or_some]
      exact ⟨percent, int_of_numeral (h.percent_lt percent hvalue), rfl⟩
  have hcond : ((leaf.name.head?.all fun c => !isLetter c) || decide (leaf.name.length > 64)) =
      false := by
    rw [Bool.or_eq_false_iff]
    constructor
    · rw [hname, List.head?_cons, Option.all_some, hletter]
      rfl
    · exact decide_eq_false (Nat.not_lt.mpr h.name_length)
  unfold parse_leaf
  rw [render_eq, hspan.1, hspan.2]
  simp only
  rw [match_providerText h, match_weightText h.weight_pos, match_percentText, hcond, hweight]
  have hworktree : ((leaf.provider.map fun provider => (provider, leaf.worktree)).map
      Prod.snd).getD false = leaf.worktree := by
    cases hprovider : leaf.provider with
    | some provider => rfl
    | none =>
      cases hworktree : leaf.worktree with
      | false => rfl
      | true => exact absurd hprovider (h.worktree hworktree)
  have hprovider : (leaf.provider.map fun provider => (provider, leaf.worktree)).map Prod.fst =
      leaf.provider := by
    cases leaf.provider <;> rfl
  simp only [hpercent, hworktree, hprovider]
  rfl

/-- A character that has no part in a comment, in a line break or between tokens. -/
def isPlain (c : Fin 0x110000) : Bool :=
  !isSpace c && !isLineEnd c && c.val ≠ 0x23 && c.val ≠ 0x2F && c ≠ opening && c ≠ closing &&
    c ≠ semicolon && c ≠ comma

theorem isPlain_of_isLeafChar (h : isLeafChar c = true) : isPlain c = true := by
  have hspace := isSpace_of_isLeafChar h
  unfold isLeafChar isProviderChar isLetter isUpper isDigit at h
  simp only [Bool.or_eq_true, Bool.and_eq_true, decide_eq_true_iff] at h
  have hopening : opening.val = 0x28 := rfl
  have hclosing : closing.val = 0x29 := rfl
  have hsemicolon : semicolon.val = 0x3B := rfl
  have hcomma : comma.val = 0x2C := rfl
  unfold isPlain isLineEnd
  simp only [hspace, Bool.and_eq_true, Bool.not_eq_true', Bool.or_eq_false_iff,
    Bool.and_eq_false_iff, decide_eq_false_iff_not, decide_eq_true_iff, ne_eq, Fin.ext_iff,
    hopening, hclosing, hsemicolon, hcomma, true_and]
  omega

theorem isLeafChar_of_isProviderChar (h : isProviderChar c = true) : isLeafChar c = true := by
  unfold isLeafChar
  rw [h]
  rfl

theorem tokenize_plain (h : ∀ c ∈ text, isPlain c = true) (buf rest : Text) :
    tokenize_rest false buf (text ++ rest) = tokenize_rest false (buf ++ text) rest := by
  induction text generalizing buf with
  | nil => rw [List.nil_append, List.append_nil]
  | cons c text ih =>
    have hc := h c List.mem_cons_self
    unfold isPlain at hc
    simp only [Bool.and_eq_true, decide_eq_true_iff, ne_eq] at hc
    rw [List.cons_append, tokenize_rest, if_neg (by decide), if_neg (by tauto),
      if_neg (by simp only [List.mem_cons, List.not_mem_nil]; tauto),
      ih fun d hd => h d (List.mem_cons_of_mem c hd), List.append_assoc, List.singleton_append]

theorem tokenize_copied (h : closing ∉ text) (buf rest : Text) :
    tokenize_rest true buf (text ++ closing :: rest) =
      tokenize_rest false (buf ++ text ++ [closing]) rest := by
  induction text generalizing buf with
  | nil =>
    rw [List.nil_append, List.append_nil, tokenize_rest, if_pos rfl]
    simp
  | cons c text ih =>
    rw [List.mem_cons, not_or] at h
    rw [List.cons_append, tokenize_rest, if_pos rfl, decide_eq_true (Ne.symm h.1), ih h.2,
      List.append_assoc buf, List.singleton_append]

theorem tokenize_suffix (hbuf : strip buf ≠ []) (h : closing ∉ text) (rest : Text) :
    tokenize_rest false buf (opening :: text ++ closing :: rest) =
      tokenize_rest false (buf ++ (opening :: text ++ [closing])) rest := by
  rw [List.cons_append, tokenize_rest, if_neg (by decide), if_pos ⟨rfl, hbuf, by simp⟩,
    tokenize_copied h]
  simp

/-- What comes before a token of punctuation, and at the end of a line. -/
def Ends (rest : Text) : Prop := ∀ c ∈ rest.head?, c ∈ [closing, semicolon, comma]

theorem tokenize_punctuation (hc : c ∈ [closing, semicolon, comma]) (buf rest : Text) :
    tokenize_rest false buf (c :: rest) =
      append_leaf_token buf ++ [c] :: tokenize_rest false [] rest := by
  have hne : c ≠ opening := by
    rintro rfl
    revert hc
    decide
  rw [tokenize_rest, if_neg (by decide), if_neg (by tauto), if_pos (List.mem_cons_of_mem _ hc)]

theorem tokenize_ends (h : Ends rest) (buf : Text) :
    tokenize_rest false buf rest = append_leaf_token buf ++ tokenize_rest false [] rest := by
  have hnil : append_leaf_token [] = [] := rfl
  cases rest with
  | nil => rw [tokenize_rest, tokenize_rest, hnil, List.append_nil]
  | cons c rest =>
    rw [tokenize_punctuation (h c rfl), tokenize_punctuation (h c rfl), hnil, List.nil_append]

theorem strip_blank_append {blank : Text} (hblank : ∀ c ∈ blank, isSpace c = true)
    (htext : ∀ c ∈ text, isSpace c = false) : strip (blank ++ text) = text := by
  have hdrop : (blank ++ text).dropWhile isSpace = text.dropWhile isSpace :=
    List.dropWhile_append_of_pos hblank
  have hself := strip_eq_self htext
  unfold strip at hself ⊢
  rw [hdrop]
  exact hself

theorem strip_ne_nil (hc : c ∈ buf) (hspace : isSpace c = false) : strip buf ≠ [] := by
  intro hnil
  unfold strip at hnil
  rw [List.reverse_eq_nil_iff, List.dropWhile_eq_nil_iff] at hnil
  rw [← List.takeWhile_append_dropWhile (p := isSpace) (l := buf), List.mem_append] at hc
  obtain hc | hc := hc
  · have htake := List.mem_takeWhile_imp hc
    rw [hspace] at htake
    cases htake
  · have hdrop := hnil c (List.mem_reverse.mpr hc)
    rw [hspace] at hdrop
    cases hdrop

/-! ### Leaves -/

theorem isSpace_of_isPlain (h : isPlain c = true) : isSpace c = false := by
  unfold isPlain at h
  simp only [Bool.and_eq_true, Bool.not_eq_true'] at h
  exact h.1.1.1.1.1.1.1

theorem plain_numeral (n : ℕ) : ∀ c ∈ numeral n, isPlain c = true := fun _ hc =>
  isPlain_of_isLeafChar
    (isLeafChar_of_isProviderChar (isProviderChar_of_isDigit (isDigit_of_mem_numeral hc)))

theorem plain_percentText (leaf : LayoutLeaf) : ∀ c ∈ percentText leaf, isPlain c = true := by
  intro c hc
  unfold percentText at hc
  cases hpercent : leaf.percent with
  | none =>
    rw [hpercent] at hc
    cases hc
  | some percent =>
    rw [hpercent, Option.map_some, Option.getD_some, ascii_at, List.singleton_append] at hc
    obtain rfl | hc := List.mem_cons.mp hc
    · decide
    · exact plain_numeral percent c hc

theorem not_mem_closing (h : ∀ c ∈ text, isPlain c = true) : closing ∉ text := by
  intro hmem
  have hplain := h closing hmem
  revert hplain
  decide

theorem tokenize_percentText (buf rest : Text) :
    tokenize_rest false buf (percentText leaf ++ rest) =
      tokenize_rest false (buf ++ percentText leaf) rest :=
  tokenize_plain (plain_percentText leaf) buf rest

theorem tokenize_weightText (hbuf : strip buf ≠ []) (rest : Text) :
    tokenize_rest false buf (weightText leaf ++ rest) =
      tokenize_rest false (buf ++ weightText leaf) rest := by
  unfold weightText
  split
  · rw [List.nil_append]
    exact tokenize_percentText buf rest
  · have hsuffix := tokenize_suffix hbuf (not_mem_closing (plain_numeral leaf.weight))
      (percentText leaf ++ rest)
    rw [ascii_opening, ascii_closing, List.singleton_append, List.append_assoc, List.append_assoc,
      List.singleton_append, hsuffix, tokenize_percentText, List.append_assoc, List.append_assoc]

theorem plain_of_render (h : WellFormed leaf)
    (hc : c ∈ leaf.render) : isPlain c = true ∨ c = opening ∨ c = closing := by
  have hword : ∀ c ∈ asciiText "(worktree)", isPlain c = true ∨ c = opening ∨ c = closing := by
    have hall : (asciiText "worktree").all isPlain = true := by decide
    intro c hc
    rw [ascii_worktree, List.mem_cons, List.mem_append, List.mem_singleton] at hc
    obtain hc | hc | hc := hc
    · exact Or.inr (Or.inl hc)
    · exact Or.inl (List.all_eq_true.mp hall c hc)
    · exact Or.inr (Or.inr hc)
  have hweight : ∀ c ∈ weightText leaf, isPlain c = true ∨ c = opening ∨ c = closing := by
    intro c hc
    unfold weightText at hc
    rw [List.mem_append] at hc
    obtain hc | hc := hc
    · split at hc
      · cases hc
      · rw [ascii_opening, ascii_closing, List.mem_append, List.mem_append, List.mem_singleton,
          List.mem_singleton] at hc
        obtain (rfl | hc) | rfl := hc
        · exact Or.inr (Or.inl rfl)
        · exact Or.inl (plain_numeral leaf.weight c hc)
        · exact Or.inr (Or.inr rfl)
    · exact Or.inl (plain_percentText leaf c hc)
  rw [render_eq, List.mem_append] at hc
  obtain hc | hc := hc
  · exact Or.inl (isPlain_of_isLeafChar (h.name_chars c hc))
  · unfold providerText at hc
    cases hprovider : leaf.provider with
    | none =>
      rw [hprovider] at hc
      exact hweight c hc
    | some provider =>
      rw [hprovider] at hc
      simp only [List.mem_append] at hc
      obtain (hc | hc) | hc := hc
      · rw [ascii_colon, List.mem_singleton] at hc
        subst hc
        exact Or.inl (by decide)
      · exact Or.inl (isPlain_of_isLeafChar
          (isLeafChar_of_isProviderChar ((h.provider provider hprovider).2 c hc)))
      · unfold worktreeText at hc
        rw [List.mem_append] at hc
        obtain hc | hc := hc
        · split at hc
          · exact hword c hc
          · cases hc
        · exact hweight c hc

theorem isSpace_of_render (h : WellFormed leaf) (hc : c ∈ leaf.render) : isSpace c = false := by
  obtain hplain | rfl | rfl := plain_of_render h hc
  · exact isSpace_of_isPlain hplain
  · decide
  · decide

theorem tokenize_worktreeText (hbuf : ∃ c ∈ buf, isSpace c = false) (rest : Text) :
    tokenize_rest false buf (worktreeText leaf ++ rest) =
      tokenize_rest false (buf ++ worktreeText leaf) rest := by
  obtain ⟨c, hc, hspace⟩ := hbuf
  unfold worktreeText
  split
  · have hword : closing ∉ asciiText "worktree" := by decide
    have hsuffix := tokenize_suffix (strip_ne_nil hc hspace) hword (weightText leaf ++ rest)
    rw [ascii_worktree, List.append_assoc, List.cons_append, List.append_assoc,
      List.singleton_append, ← List.cons_append, hsuffix,
      tokenize_weightText (strip_ne_nil (List.mem_append_left _ hc) hspace)]
    simp
  · rw [List.nil_append]
    exact tokenize_weightText (strip_ne_nil hc hspace) rest

/-- A leaf after spaces, with what follows it, is one token. -/
theorem tokenize_leaf (h : WellFormed leaf)
    (hbuf : ∀ c ∈ buf, isSpace c = true) (hrest : Ends rest) :
    tokenize_rest false buf (leaf.render ++ rest) = leaf.render :: tokenize_rest false [] rest := by
  obtain ⟨c, name, hname, hletter⟩ := h.name_head
  have hc : c ∈ leaf.name := by
    rw [hname]
    exact List.mem_cons_self
  have hspace := isSpace_of_isLeafChar (h.name_chars c hc)
  have hplain : ∀ d ∈ leaf.name, isPlain d = true :=
    fun d hd => isPlain_of_isLeafChar (h.name_chars d hd)
  have htoken : append_leaf_token (buf ++ leaf.render) = [leaf.render] := by
    have hstrip : strip (buf ++ leaf.render) = leaf.render :=
      strip_blank_append hbuf fun d hd => isSpace_of_render h hd
    unfold append_leaf_token
    rw [hstrip, if_neg (by rw [render_eq, hname]; simp)]
  have hread : tokenize_rest false buf (leaf.render ++ rest) =
      tokenize_rest false (buf ++ leaf.render) rest := by
    rw [render_eq, List.append_assoc, tokenize_plain hplain]
    unfold providerText
    cases hprovider : leaf.provider with
    | none =>
      simp only
      rw [tokenize_weightText (strip_ne_nil (List.mem_append_right _ hc) hspace), List.append_assoc]
    | some provider =>
      have hchars : ∀ d ∈ asciiText ":" ++ provider, isPlain d = true := by
        intro d hd
        rw [ascii_colon, List.singleton_append] at hd
        obtain rfl | hd := List.mem_cons.mp hd
        · decide
        · exact isPlain_of_isLeafChar
            (isLeafChar_of_isProviderChar ((h.provider provider hprovider).2 d hd))
      have hmem : c ∈ buf ++ leaf.name ++ (asciiText ":" ++ provider) :=
        List.mem_append_left _ (List.mem_append_right _ hc)
      simp only
      rw [List.append_assoc _ (worktreeText leaf), tokenize_plain hchars,
        tokenize_worktreeText ⟨c, hmem, hspace⟩]
      simp
  rw [hread, tokenize_ends hrest, htoken]
  rfl

/-! ### Branches -/

def LeavesWellFormed : LayoutNode → Prop
  | .leaf item => WellFormed item
  | .branch _ left right => LeavesWellFormed left ∧ LeavesWellFormed right

def separatorToken : BranchKind → Text
  | .horizontal => [semicolon]
  | .vertical => [comma]

def childTokens (node : LayoutNode) (parent_kind : BranchKind) (tokens : List Text) : List Text :=
  match node, parent_kind with
  | .branch .horizontal _ _, .vertical => [opening] :: (tokens ++ [[closing]])
  | _, _ => tokens

def tokensOf : LayoutNode → List Text
  | .leaf item => [item.render]
  | .branch kind left right =>
    childTokens left kind (tokensOf left) ++
      separatorToken kind :: childTokens right kind (tokensOf right)

theorem tokenize_group (hnode : ∀ (buf rest : Text), (∀ c ∈ buf, isSpace c = true) → Ends rest →
      tokenize_rest false buf (node.render ++ rest) =
        tokensOf node ++ tokenize_rest false [] rest) (hbuf : ∀ c ∈ buf, isSpace c = true) :
    tokenize_rest false buf (asciiText "(" ++ node.render ++ asciiText ")" ++ rest) =
      [opening] :: (tokensOf node ++ [[closing]]) ++ tokenize_rest false [] rest := by
  have hblank : strip buf = [] := by
    have hstrip := strip_blank_append hbuf (List.forall_mem_nil fun c => isSpace c = false)
    rw [List.append_nil] at hstrip
    exact hstrip
  have hempty : append_leaf_token buf = [] := by
    unfold append_leaf_token
    rw [if_pos hblank]
  have hends : Ends (closing :: rest) := by
    intro c hc
    cases hc
    simp
  have hclose := tokenize_punctuation (c := closing) (by simp) [] rest
  have hinner := hnode [] (closing :: rest) (fun c hc => absurd hc List.not_mem_nil) hends
  rw [ascii_opening, ascii_closing, List.append_assoc, List.append_assoc,
    List.singleton_append, List.singleton_append, tokenize_rest, if_neg (by decide),
    if_neg (by tauto), if_pos List.mem_cons_self, hempty, List.nil_append, hinner, hclose]
  have hnil : append_leaf_token [] = [] := rfl
  simp [hnil]

theorem tokenize_child (hnode : ∀ (buf rest : Text), (∀ c ∈ buf, isSpace c = true) → Ends rest →
      tokenize_rest false buf (node.render ++ rest) =
        tokensOf node ++ tokenize_rest false [] rest) (kind : BranchKind)
    (hbuf : ∀ c ∈ buf, isSpace c = true) (hrest : Ends rest) :
    tokenize_rest false buf (render_child node kind node.render ++ rest) =
      childTokens node kind (tokensOf node) ++ tokenize_rest false [] rest := by
  cases node with
  | leaf item => exact hnode buf rest hbuf hrest
  | branch child_kind left right =>
    cases child_kind with
    | vertical => exact hnode buf rest hbuf hrest
    | horizontal =>
      cases kind with
      | horizontal => exact hnode buf rest hbuf hrest
      | vertical => exact tokenize_group hnode hbuf

theorem tokenize_separator (kind : BranchKind) (text : Text) :
    tokenize_rest false [] (separatorToken kind ++ ([0x20] ++ text)) =
      separatorToken kind :: tokenize_rest false [0x20] text := by
  have hstep : tokenize_rest false [] ((0x20 : Fin 0x110000) :: text) =
      tokenize_rest false [0x20] text := by
    rw [tokenize_rest, if_neg (by decide), if_neg fun h => absurd h.1 (by decide),
      if_neg (by decide)]
    rfl
  cases kind with
  | horizontal =>
    exact (tokenize_punctuation (c := semicolon) (by simp) [] _).trans (by rw [← hstep]; rfl)
  | vertical =>
    exact (tokenize_punctuation (c := comma) (by simp) [] _).trans (by rw [← hstep]; rfl)

theorem render_branch (kind : BranchKind) (left right : LayoutNode) :
    (LayoutNode.branch kind left right).render =
      render_child left kind left.render ++
        (separatorToken kind ++ ([0x20] ++ render_child right kind right.render)) := by
  have hhorizontal : asciiText "; " = [semicolon, 0x20] := by decide
  have hvertical : asciiText ", " = [comma, 0x20] := by decide
  cases kind with
  | horizontal =>
    change _ ++ asciiText "; " ++ _ = _
    rw [hhorizontal, List.append_assoc]
    rfl
  | vertical =>
    change _ ++ asciiText ", " ++ _ = _
    rw [hvertical, List.append_assoc]
    rfl

theorem tokenize_node (h : LeavesWellFormed node) :
    ∀ (buf rest : Text), (∀ c ∈ buf, isSpace c = true) → Ends rest →
      tokenize_rest false buf (node.render ++ rest) =
        tokensOf node ++ tokenize_rest false [] rest := by
  induction node with
  | leaf item => exact fun buf rest hbuf hrest => tokenize_leaf h hbuf hrest
  | branch kind left right ihleft ihright =>
    intro buf rest hbuf hrest
    have hspace : ∀ c ∈ [(0x20 : Fin 0x110000)], isSpace c = true := by
      intro c hc
      rw [List.mem_singleton] at hc
      subst hc
      decide
    have hends : Ends (separatorToken kind ++
        ([0x20] ++ (render_child right kind right.render ++ rest))) := by
      intro c hc
      cases kind <;> cases hc <;> simp
    rw [render_branch, List.append_assoc, List.append_assoc, List.append_assoc,
      tokenize_child (ihleft h.1) kind hbuf hends, tokenize_separator,
      tokenize_child (ihright h.2) kind hspace hrest, tokensOf, List.append_assoc,
      List.cons_append]

/-! ### Lines -/

/-- A character that ends no line and begins no comment. -/
def isInline (c : Fin 0x110000) : Bool := !isLineEnd c && c.val ≠ 0x23 && c.val ≠ 0x2F

theorem isInline_of_isPlain (h : isPlain c = true) : isInline c = true := by
  unfold isPlain at h
  simp only [Bool.and_eq_true] at h
  unfold isInline
  simp only [Bool.and_eq_true]
  tauto

theorem inline_of_render (h : LeavesWellFormed node) : ∀ c ∈ node.render, isInline c = true := by
  have hparens : isInline opening = true ∧ isInline closing = true := by decide
  have hchild : ∀ (child : LayoutNode) (kind : BranchKind),
      (∀ c ∈ child.render, isInline c = true) →
      ∀ c ∈ render_child child kind child.render, isInline c = true := by
    intro child kind hrender c hc
    unfold render_child at hc
    split at hc
    · rw [ascii_opening, ascii_closing, List.mem_append, List.mem_append, List.mem_singleton,
        List.mem_singleton] at hc
      obtain (rfl | hc) | rfl := hc
      · exact hparens.1
      · exact hrender c hc
      · exact hparens.2
    · exact hrender c hc
  induction node with
  | leaf item =>
    intro c hc
    obtain hplain | rfl | rfl := plain_of_render h hc
    · exact isInline_of_isPlain hplain
    · exact hparens.1
    · exact hparens.2
  | branch kind left right ihleft ihright =>
    intro c hc
    rw [render_branch, List.mem_append, List.mem_append, List.mem_append] at hc
    obtain hc | hc | hc | hc := hc
    · exact hchild left kind (ihleft h.1) c hc
    · cases kind <;> · cases List.mem_singleton.mp hc; decide
    · cases List.mem_singleton.mp hc
      decide
    · exact hchild right kind (ihright h.2) c hc

theorem splitlinesFrom_inline (h : ∀ c ∈ text, isInline c = true) (carry : Text)
    (hne : carry ++ text ≠ []) : splitlinesFrom false carry text = [carry ++ text] := by
  induction text generalizing carry with
  | nil =>
    rw [List.append_nil] at hne ⊢
    rw [splitlinesFrom, if_neg hne]
  | cons c text ih =>
    have hc := h c List.mem_cons_self
    unfold isInline at hc
    simp only [Bool.and_eq_true, Bool.not_eq_true'] at hc
    rw [splitlinesFrom, if_neg (by simp), hc.1.1, if_neg (by decide),
      ih (fun d hd => h d (List.mem_cons_of_mem c hd)) _ (by simp), List.append_assoc,
      List.singleton_append]

theorem before_slashes_inline (h : ∀ c ∈ text, isInline c = true) : before_slashes text = text := by
  induction text with
  | nil => rfl
  | cons c text ih =>
    have hc := h c List.mem_cons_self
    unfold isInline at hc
    simp only [Bool.and_eq_true, decide_eq_true_iff] at hc
    have hrest := ih fun d hd => h d (List.mem_cons_of_mem c hd)
    cases text with
    | nil => rfl
    | cons d text => rw [before_slashes, if_neg fun heq => hc.2 heq.1, hrest]

theorem without_comment_inline (h : ∀ c ∈ text, isInline c = true) :
    without_comment text = text := by
  have htake : (text.takeWhile fun c => c.val ≠ 0x23) = text := by
    rw [List.takeWhile_eq_self_iff]
    intro c hc
    have hinline := h c hc
    unfold isInline at hinline
    simp only [Bool.and_eq_true] at hinline
    exact hinline.1.2
  unfold without_comment
  rw [htake, before_slashes_inline h]

theorem render_ne_nil (h : LeavesWellFormed node) : node.render ≠ [] := by
  cases node with
  | leaf item =>
    obtain ⟨c, name, hname, -⟩ := h.name_head
    change item.render ≠ []
    rw [render_eq, hname]
    simp
  | branch kind left right =>
    rw [render_branch]
    simp

theorem tokenize_render (h : LeavesWellFormed node) : tokenize node.render = tokensOf node := by
  have hinline := inline_of_render h
  have hnode := tokenize_node h [] [] (fun c hc => absurd hc List.not_mem_nil) (by
    intro c hc
    cases hc)
  unfold tokenize splitlines
  rw [splitlinesFrom_inline hinline [] (by simpa using render_ne_nil h), List.nil_append,
    List.flatMap_singleton, without_comment_inline hinline]
  rw [List.append_nil] at hnode
  rw [hnode]
  exact List.append_nil _

end ClaudeCodeBridge.Analysis.LayoutText
