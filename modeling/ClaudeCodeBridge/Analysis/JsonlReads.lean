import Mathlib.Data.List.DropRight
import Mathlib.Data.List.ReduceOption
import ClaudeCodeBridge.Model.JsonlStore

/-!
# Backward reads

The lines that a backward reader completes, chunk by chunk, are the runs of the file in reverse
(`next_chunk_spec`), so that neither read depends on where the chunks begin: `find_last` checks
the runs from the last one on (`find_last_eq`), and `read_tail` collects their rows
(`read_tail_eq`).
-/

set_option autoImplicit false

namespace ClaudeCodeBridge.Analysis.JsonlStore

open Program
open Model.JsonlStore
open Model.Relay (strip)

variable {ρ τ : Type} {rows : Rows ρ τ} {content buffer raw : Bytes} {lines : List Bytes}
  {size position limit turns : ℕ} {ignore_invalid : Bool} {found : List τ}
  {predicate : ρ → Bool}

def fileRuns (content : Bytes) : List Bytes := runs 0x0A 0x0D content

theorem take_position (content : Bytes) (read_size : ℕ)
    (hsize : read_size ≤ position) :
    content.take position = content.take (position - read_size) ++
      (content.drop (position - read_size)).take read_size := by
  have hadd := List.take_add (l := content) (i := position - read_size) (j := read_size)
  rw [Nat.sub_add_cancel hsize] at hadd
  exact hadd

/-- A chunk completes the last lines of what comes before it. -/
theorem next_chunk_spec (content : Bytes) (hsize : 0 < size) (hpos : 0 < position) :
    (next_chunk content size position buffer).1 < position ∧
      ((next_chunk content size position buffer).1 = 0 →
        (next_chunk content size position buffer).2.1 = []) ∧
      fileRuns (content.take position ++ buffer) =
        fileRuns (content.take (next_chunk content size position buffer).1 ++
          (next_chunk content size position buffer).2.1) ++
        (next_chunk content size position buffer).2.2.filter fun line => line ≠ [] := by
  have hmin : 0 < min size position := lt_min hsize hpos
  have hchunk := take_position content (min size position) (min_le_right size position)
  have hlt : position - min size position < position := Nat.sub_lt hpos hmin
  unfold next_chunk fileRuns
  rw [hchunk, List.append_assoc]
  simp only
  generalize position - min size position = start at hlt ⊢
  generalize (content.drop start).take (min size position) ++ buffer = joined
  split
  · rename_i hcond
    simp only [Bool.and_eq_true, decide_eq_true_iff, Bool.not_eq_true'] at hcond
    obtain ⟨⟨hstart, hjoined⟩, hbreak⟩ := hcond
    obtain hunbroken | ⟨a, x, b, rfl, ha, hx⟩ := unbroken_or_break 0x0A 0x0D joined
    · obtain ⟨rest, hlines, hrest⟩ := splitLines_first hunbroken hjoined
        (b := []) (fun x hx => by cases hx)
      rw [List.append_nil] at hlines
      rw [hlines]
      refine ⟨hlt, fun hzero => absurd hzero hstart.ne', ?_⟩
      rw [List.tail_cons, hrest]
      exact (List.append_nil _).symm
    · have hhead : ∀ y ∈ (x :: b).head?, isBreak 0x0A 0x0D y = true := by
        intro y hy
        rw [List.head?_cons, Option.mem_def, Option.some_inj] at hy
        rw [← hy]
        exact hx
      have hnil : a ≠ [] := by
        rintro rfl
        unfold starts_with_break at hbreak
        rw [List.nil_append, List.head?_cons, Option.map_some, Option.getD_some, hx] at hbreak
        cases hbreak
      obtain ⟨rest, hlines, hrest⟩ := splitLines_first ha hnil hhead
      rw [hlines]
      refine ⟨hlt, fun hzero => absurd hzero hstart.ne', ?_⟩
      rw [List.tail_cons, hrest, List.head?_cons, Option.getD_some, ← List.append_assoc,
        runs_append hhead]
  · rename_i hcond
    refine ⟨hlt, fun _ => rfl, ?_⟩
    rw [splitLines_filter, List.append_nil]
    by_cases hstart : start = 0
    · rw [hstart, List.take_zero, List.nil_append]
      rfl
    · apply runs_append
      intro x hx
      cases joined with
      | nil => cases hx
      | cons y joined =>
        rw [List.head?_cons, Option.mem_def, Option.some_inj] at hx
        by_contra hbreak
        apply hcond
        unfold starts_with_break
        simp only [List.head?_cons, Option.map_some, Option.getD_some, hx,
          Bool.not_eq_true _ ▸ hbreak]
        simp [Nat.pos_of_ne_zero hstart]

theorem tail_line_nil (rows : Rows ρ τ) (ignore_invalid : Bool) :
    rows.tail_line ignore_invalid [] = .ok none := rfl

theorem tail_lines_full (h : limit ≤ found.length) (lines : List Bytes) :
    rows.tail_lines limit ignore_invalid lines found = .ok found := by
  cases lines with
  | nil => rfl
  | cons raw lines =>
    rw [Rows.tail_lines, if_pos h]

theorem tail_lines_append (lines lines' : List Bytes) (found : List τ) :
    rows.tail_lines limit ignore_invalid (lines ++ lines') found =
      (rows.tail_lines limit ignore_invalid lines found).bind
        (rows.tail_lines limit ignore_invalid lines') := by
  induction lines generalizing found with
  | nil => rfl
  | cons raw lines ih =>
    rw [List.cons_append, Rows.tail_lines, Rows.tail_lines]
    by_cases hfull : limit ≤ found.length
    · rw [if_pos hfull, if_pos hfull]
      exact (tail_lines_full hfull lines').symm
    · rw [if_neg hfull, if_neg hfull]
      cases rows.tail_line ignore_invalid raw with
      | error error => rfl
      | ok row => exact ih _

theorem tail_lines_filter (lines : List Bytes) (found : List τ) :
    rows.tail_lines limit ignore_invalid (lines.filter fun line => line ≠ []) found =
      rows.tail_lines limit ignore_invalid lines found := by
  induction lines generalizing found with
  | nil => rfl
  | cons raw lines ih =>
    rw [List.filter_cons]
    by_cases hraw : raw = []
    · rw [if_neg (by simp [hraw]), ih, hraw]
      by_cases hfull : limit ≤ found.length
      · rw [tail_lines_full hfull, tail_lines_full hfull]
      · rw [Rows.tail_lines, if_neg hfull, tail_line_nil]
        exact (congrArg _ (List.append_nil found)).symm
    · rw [if_pos (by simp [hraw]), Rows.tail_lines, Rows.tail_lines]
      simp only [ih]

/-- The chunks do not matter: the runs are read from the last one on. -/
theorem read_tail_from_eq (rows : Rows ρ τ) (content : Bytes) (limit : ℕ) (ignore_invalid : Bool)
    (hsize : 0 < size) (hturns : position ≤ turns) (hstart : position = 0 → buffer = [])
    (found : List τ) :
    rows.read_tail_from content size limit ignore_invalid turns position buffer found =
      rows.tail_lines limit ignore_invalid
        (fileRuns (content.take position ++ buffer)).reverse found := by
  induction turns generalizing position buffer found with
  | zero =>
    have hzero : position = 0 := Nat.le_zero.mp hturns
    rw [hstart hzero, hzero, List.take_zero, List.nil_append]
    rfl
  | succ turns ih =>
    rw [Rows.read_tail_from]
    by_cases hpos : 0 < position
    · by_cases hfull : limit ≤ found.length
      · rw [if_neg (by omega), tail_lines_full hfull]
      · rw [if_pos ⟨hpos, by omega⟩]
        obtain ⟨hlt, hzero, hruns⟩ := next_chunk_spec content hsize hpos
        rw [hruns, List.reverse_append, tail_lines_append, ← List.filter_reverse, tail_lines_filter]
        simp only
        cases rows.tail_lines limit ignore_invalid
          (next_chunk content size position buffer).2.2.reverse found with
        | error error => rfl
        | ok found => exact ih (by omega) hzero found
    · have hzero : position = 0 := by omega
      rw [if_neg (by omega), hstart hzero, hzero, List.take_zero, List.nil_append]
      rfl

theorem read_tail_eq (rows : Rows ρ τ) (content : Bytes) (hsize : 0 < size)
    (ignore_invalid : Bool) :
    rows.read_tail content size limit ignore_invalid =
      (rows.tail_lines limit ignore_invalid (fileRuns content).reverse []).map List.reverse := by
  unfold Rows.read_tail
  by_cases hlimit : limit = 0
  · rw [if_pos hlimit, tail_lines_full (by omega)]
    rfl
  · have hloop := read_tail_from_eq rows content limit ignore_invalid hsize (le_refl content.length)
      (fun _ => rfl) []
    rw [List.take_length, List.append_nil] at hloop
    rw [if_neg hlimit, hloop]
    rfl

def loaded (rows : Rows ρ τ) (raw : Bytes) : Option τ := (rows.read_line raw).toOption.join

/-- `json.loads` follows a text to its end. -/
def followed : Loads ρ → Bool
  | .too_deep => false
  | _ => true

/-- A line can be decoded, and `json.loads` follows its text. -/
def tolerated (rows : Rows ρ τ) (raw : Bytes) : Bool :=
  (utf8Decode raw).any fun line => strip line = [] || followed (rows.loads (strip line))

theorem read_text_tolerated {line : Text}
    (h : (strip line = [] || followed (rows.loads (strip line))) = true) :
    (∃ row, rows.read_text line = .ok row) ∨
      ∃ error, rows.read_text line = .error error ∧ error.caught = true := by
  unfold Rows.read_text
  split
  · exact Or.inl ⟨none, rfl⟩
  · rename_i hblank
    rw [Bool.or_eq_true, decide_eq_true_iff, or_iff_right hblank] at h
    unfold Rows.payload
    cases hloads : rows.loads (strip line) with
    | object payload =>
      cases hloader : rows.loader payload with
      | some row =>
        have hload : rows.load payload = .ok row := by
          unfold Rows.load
          rw [hloader]
        refine Or.inl ⟨some row, ?_⟩
        simp only [bind, Except.bind, hload]
        rfl
      | none =>
        have hload : rows.load payload = .error .rejected := by
          unfold Rows.load
          rw [hloader]
        refine Or.inr ⟨.rejected, ?_, rfl⟩
        simp only [bind, Except.bind, hload]
    | other => exact Or.inr ⟨.not_object, rfl, rfl⟩
    | invalid => exact Or.inr ⟨.invalid, rfl, rfl⟩
    | too_deep =>
      rw [hloads] at h
      cases h

theorem tail_line_tolerated (h : tolerated rows raw = true) :
    rows.tail_line true raw = .ok (loaded rows raw) := by
  unfold tolerated at h
  unfold Rows.tail_line loaded Rows.read_line
  cases hdecode : utf8Decode raw with
  | none =>
    rw [hdecode] at h
    cases h
  | some line =>
    rw [hdecode, Option.any_some] at h
    obtain ⟨row, hrow⟩ | ⟨error, herror, hcaught⟩ := read_text_tolerated h
    · simp only [hrow]
      rfl
    · simp only [herror, hcaught, Bool.and_self, if_true]
      rfl

theorem tail_line_not_tolerated (h : tolerated rows raw = false) :
    ∃ error, rows.tail_line true raw = .error error := by
  unfold tolerated at h
  unfold Rows.tail_line Rows.read_line
  cases hdecode : utf8Decode raw with
  | none => exact ⟨.undecodable, rfl⟩
  | some line =>
    rw [hdecode, Option.any_some, Bool.or_eq_false_iff, decide_eq_false_iff_not] at h
    obtain ⟨hblank, hfollowed⟩ := h
    refine ⟨.too_deep, ?_⟩
    have hdeep : rows.loads (strip line) = .too_deep := by
      cases hloads : rows.loads (strip line) with
      | too_deep => rfl
      | object payload | other | invalid =>
        rw [hloads] at hfollowed
        cases hfollowed
    unfold Rows.read_text Rows.payload
    simp only [if_neg hblank, hdeep]
    rfl

/-- Every line that is read before there are enough rows is tolerated. -/
def Tolerated (rows : Rows ρ τ) (limit : ℕ) (lines : List Bytes) : Prop :=
  ∀ before raw after, lines = before ++ raw :: after →
    (before.filterMap (loaded rows)).length < limit → tolerated rows raw = true

theorem tolerated_cons (hlimit : 0 < limit) :
    Tolerated rows limit (raw :: lines) ↔
      tolerated rows raw = true ∧
        Tolerated rows (limit - (loaded rows raw).toList.length) lines := by
  have hlength : ∀ before : List Bytes, ((raw :: before).filterMap (loaded rows)).length =
      (loaded rows raw).toList.length + (before.filterMap (loaded rows)).length := by
    intro before
    rw [List.filterMap_cons]
    cases loaded rows raw with
    | none => exact (Nat.zero_add _).symm
    | some row => exact Nat.add_comm _ 1
  constructor
  · intro h
    refine ⟨h [] raw lines rfl hlimit, ?_⟩
    intro before raw' after hlines hbefore
    apply h (raw :: before) raw' after
    · rw [hlines, List.cons_append]
    · rw [hlength]
      omega
  · rintro ⟨hraw, h⟩ before raw' after hlines hbefore
    cases before with
    | nil =>
      rw [List.nil_append, List.cons.injEq] at hlines
      rw [← hlines.1]
      exact hraw
    | cons first before =>
      rw [List.cons_append, List.cons.injEq] at hlines
      obtain ⟨rfl, hlines⟩ := hlines
      rw [hlength] at hbefore
      exact h before raw' after hlines (by omega)

/-- Reading fails at the first line that is not tolerated, and otherwise finds the first rows. -/
theorem tail_lines_iff (rows : Rows ρ τ) (limit : ℕ) (lines : List Bytes) (found : List τ) :
    rows.tail_lines limit true lines found =
        .ok (found ++ (lines.filterMap (loaded rows)).take (limit - found.length)) ↔
      Tolerated rows (limit - found.length) lines := by
  induction lines generalizing found with
  | nil =>
    rw [Rows.tail_lines, List.filterMap_nil, List.take_nil, List.append_nil]
    refine ⟨fun _ before raw after hlines => ?_, fun _ => rfl⟩
    exact absurd hlines.symm (by simp)
  | cons raw lines ih =>
    by_cases hfull : limit ≤ found.length
    · rw [tail_lines_full hfull, Nat.sub_eq_zero_of_le hfull, List.take_zero, List.append_nil]
      exact ⟨fun _ _ _ _ _ hbefore => absurd hbefore (Nat.not_lt_zero _), fun _ => rfl⟩
    · rw [tolerated_cons (by omega), Rows.tail_lines, if_neg hfull]
      cases hraw : tolerated rows raw with
      | false =>
        obtain ⟨error, herror⟩ := tail_line_not_tolerated hraw
        rw [herror]
        constructor
        · intro h
          cases h
        · intro h
          cases h.1
      | true =>
        have htake : (List.filterMap (loaded rows) (raw :: lines)).take (limit - found.length) =
            (loaded rows raw).toList ++ (lines.filterMap (loaded rows)).take
              (limit - (found ++ (loaded rows raw).toList).length) := by
          rw [List.filterMap_cons, List.length_append]
          cases loaded rows raw with
          | none => rfl
          | some row =>
            obtain ⟨more, hmore⟩ : ∃ more, limit - found.length = more + 1 :=
              ⟨limit - found.length - 1, by omega⟩
            rw [hmore, List.take_succ_cons, Option.toList_some, List.singleton_append,
              List.length_singleton, Nat.sub_add_eq, hmore, Nat.add_sub_cancel]
        have hrest := ih (found ++ (loaded rows raw).toList)
        rw [List.append_assoc, ← htake, List.length_append, Nat.sub_add_eq] at hrest
        rw [tail_line_tolerated hraw]
        exact hrest.trans (and_iff_right rfl).symm

/-- The tail of a file is read tolerantly exactly when every line with fewer than the wanted rows
after it can be decoded, and is not too deep for `json.loads`. -/
theorem read_tail_tolerant_iff (rows : Rows ρ τ) (content : Bytes) (size : ℕ+) (limit : ℕ) :
    rows.read_tail content size limit true =
        .ok (((splitLines 0x0A 0x0D content).filterMap (loaded rows)).rtake limit) ↔
      ∀ before raw after, splitLines 0x0A 0x0D content = before ++ raw :: after →
        (after.filterMap (loaded rows)).length < limit → tolerated rows raw = true := by
  have hlines : rows.tail_lines limit true (fileRuns content).reverse [] =
      rows.tail_lines limit true (splitLines 0x0A 0x0D content).reverse [] := by
    unfold fileRuns
    rw [← splitLines_filter, ← List.filter_reverse, tail_lines_filter]
  have hiff := tail_lines_iff rows limit (splitLines 0x0A 0x0D content).reverse []
  rw [List.nil_append, List.length_nil, Nat.sub_zero] at hiff
  rw [read_tail_eq rows content size.pos, hlines, List.rtake_eq_reverse_take_reverse,
    ← List.filterMap_reverse]
  have hreverse : ∀ (result : Except ReadError (List τ)) (found : List τ),
      result.map List.reverse = .ok found.reverse ↔ result = .ok found := by
    intro result found
    cases result with
    | error error =>
      constructor <;> intro h <;> cases h
    | ok out =>
      change Except.ok out.reverse = Except.ok found.reverse ↔ _
      rw [Except.ok.injEq, Except.ok.injEq, List.reverse_inj]
  rw [hreverse, hiff]
  constructor
  · intro h before raw after hcontent hafter
    apply h after.reverse raw before.reverse
    · rw [hcontent, List.reverse_append, List.reverse_cons, List.append_assoc,
        List.singleton_append]
    · rw [List.filterMap_reverse, List.length_reverse]
      exact hafter
  · intro h before raw after hcontent hbefore
    apply h after.reverse raw before.reverse
    · rw [← List.reverse_inj, hcontent, List.reverse_append, List.reverse_cons,
        List.append_assoc, List.singleton_append, List.reverse_reverse, List.reverse_reverse]
    · rw [List.filterMap_reverse, List.length_reverse]
      exact hbefore

/-- How the rows that have been written are read. -/
def jsonRows (loads : Text → Loads ρ) : Rows ρ ρ := { loads := loads, loader := some }

/-- A line that cannot be decoded is not skipped. -/
theorem read_tail_not_tolerant :
    ¬ ∀ (ρ τ : Type) (rows : Rows ρ τ) (content : Bytes) (size : ℕ+) (limit : ℕ),
      rows.read_tail content size limit true =
        .ok (((splitLines 0x0A 0x0D content).filterMap (loaded rows)).rtake limit) := by
  intro h
  have hread := h _ _ (jsonRows json_loads) ([0xFF, 0x0A] ++ ascii "\x7b\x7d" ++ [0x0A]) 8192 2
  have herror : (jsonRows json_loads).read_tail ([0xFF, 0x0A] ++ ascii "\x7b\x7d" ++ [0x0A])
      (8192 : ℕ+) 2 true = .error .undecodable := by
    rfl
  rw [herror] at hread
  cases hread

theorem check_lines_append (lines lines' : List Bytes) :
    rows.check_lines predicate (lines ++ lines') =
      (rows.check_lines predicate lines).bind fun row =>
        if row.isSome then .ok row else rows.check_lines predicate lines' := by
  induction lines with
  | nil => rfl
  | cons raw lines ih =>
    rw [List.cons_append, Rows.check_lines, Rows.check_lines]
    cases rows.check_line predicate raw with
    | error error => rfl
    | ok row =>
      simp only [bind, Except.bind]
      cases row with
      | none => exact ih
      | some row => rfl

theorem check_lines_filter (lines : List Bytes) :
    rows.check_lines predicate (lines.filter fun line => line ≠ []) =
      rows.check_lines predicate lines := by
  induction lines with
  | nil => rfl
  | cons raw lines ih =>
    rw [List.filter_cons]
    by_cases hraw : raw = []
    · rw [if_neg (by simp [hraw]), ih, hraw]
      rfl
    · rw [if_pos (by simp [hraw]), Rows.check_lines, Rows.check_lines, ih]

/-- The chunks do not matter: the runs are checked from the last one on. -/
theorem find_last_from_eq (rows : Rows ρ τ) (content : Bytes) (predicate : ρ → Bool)
    (hsize : 0 < size) (hturns : position ≤ turns) (hstart : position = 0 → buffer = []) :
    rows.find_last_from content size predicate turns position buffer =
      rows.check_lines predicate (fileRuns (content.take position ++ buffer)).reverse := by
  induction turns generalizing position buffer with
  | zero =>
    have hzero : position = 0 := Nat.le_zero.mp hturns
    rw [hstart hzero, hzero, List.take_zero, List.nil_append]
    rfl
  | succ turns ih =>
    rw [Rows.find_last_from]
    by_cases hpos : 0 < position
    · obtain ⟨hlt, hzero, hruns⟩ := next_chunk_spec content hsize hpos
      rw [if_pos hpos, hruns, List.reverse_append, check_lines_append, ← List.filter_reverse,
        check_lines_filter]
      simp only
      cases rows.check_lines predicate (next_chunk content size position buffer).2.2.reverse with
      | error error => rfl
      | ok row =>
        cases row with
        | none => exact ih (by omega) hzero
        | some row => rfl
    · have hzero : position = 0 := by omega
      rw [if_neg hpos, hstart hzero, hzero, List.take_zero, List.nil_append]
      rfl

theorem find_last_eq (rows : Rows ρ τ) (content : Bytes) (hsize : 0 < size) (predicate : ρ → Bool) :
    rows.find_last content size predicate =
      rows.check_lines predicate (fileRuns content).reverse := by
  have hloop := find_last_from_eq rows content predicate hsize (le_refl content.length) (fun _ => rfl)
  rw [List.take_length, List.append_nil] at hloop
  exact hloop

theorem read_lines_filter (lines : List Text) :
    rows.read_lines (lines.filter fun line => line ≠ []) = rows.read_lines lines := by
  induction lines with
  | nil => rfl
  | cons line lines ih =>
    rw [List.filter_cons]
    by_cases hline : line = []
    · rw [if_neg (by simp [hline]), ih, hline, Rows.read_lines]
      have hblank : rows.read_text [] = .ok none := rfl
      rw [hblank]
      cases rows.read_lines lines <;> rfl
    · rw [if_pos (by simp [hline]), Rows.read_lines, Rows.read_lines, ih]

/-- Lines that are read, and the objects that they hold. -/
def ReadsAs (rows : Rows ρ τ) (raws : List Bytes) (payloads : List (Option ρ)) : Prop :=
  List.Forall₂ (fun raw payload => rows.plain.read_line raw = .ok payload) raws payloads

theorem read_lines_cons (line : Text) (lines : List Text) :
    rows.read_lines (line :: lines) =
      (rows.read_text line).bind fun row =>
        (rows.read_lines lines).map fun rest => row.toList ++ rest := by
  rw [Rows.read_lines]
  cases rows.read_text line with
  | error error => rfl
  | ok row => cases rows.read_lines lines <;> rfl

theorem read_lines_iff (rows : Rows ρ τ) (lines : List Text) (payloads : List τ) :
    rows.read_lines lines = .ok payloads ↔
      ∃ found, List.Forall₂ (fun line payload => rows.read_text line = .ok payload) lines found ∧
        found.reduceOption = payloads := by
  induction lines generalizing payloads with
  | nil =>
    constructor
    · intro h
      cases h
      exact ⟨[], List.Forall₂.nil, rfl⟩
    · rintro ⟨found, hfound, rfl⟩
      cases hfound
      rfl
  | cons line lines ih =>
    rw [read_lines_cons]
    constructor
    · intro h
      cases hline : rows.read_text line with
      | error error =>
        rw [hline] at h
        cases h
      | ok row =>
        cases hlines : rows.read_lines lines with
        | error error =>
          rw [hline, hlines] at h
          cases h
        | ok rest =>
          rw [hline, hlines] at h
          cases h
          obtain ⟨found, hfound, hrest⟩ := (ih rest).mp hlines
          refine ⟨row :: found, List.Forall₂.cons hline hfound, ?_⟩
          cases row with
          | none => exact hrest
          | some row =>
            rw [List.reduceOption_cons_of_some, hrest]
            rfl
    · rintro ⟨found, hfound, rfl⟩
      cases hfound with
      | cons hline hfound =>
        rename_i row found
        rw [hline, (ih _).mpr ⟨found, hfound, rfl⟩]
        cases row with
        | none => rfl
        | some row =>
          rw [List.reduceOption_cons_of_some]
          rfl

theorem read_line_of_decoded {line : Text} (h : utf8Decode raw = some line) :
    rows.read_line raw = rows.read_text line := by
  unfold Rows.read_line
  rw [h]

variable {raws : List Bytes}

theorem reads_of_decoded {lines : List Text} {found : List (Option ρ)}
    (hdecode : List.Forall₂ (fun raw line => utf8Decode raw = some line) raws lines) :
    ReadsAs rows raws found ↔
      List.Forall₂ (fun line payload => rows.plain.read_text line = .ok payload) lines found := by
  unfold ReadsAs
  induction hdecode generalizing found with
  | nil =>
    rw [List.forall₂_nil_left_iff, List.forall₂_nil_left_iff]
  | cons hline _ ih =>
    rw [List.forall₂_cons_left_iff, List.forall₂_cons_left_iff]
    simp only [read_line_of_decoded hline, ih]

theorem decoded_of_reads {found : List (Option ρ)}
    (h : ReadsAs rows raws found) (hraw : raw ∈ raws) :
    ∃ decoded, utf8Decode raw = some decoded := by
  unfold ReadsAs at h
  induction h with
  | nil => cases hraw
  | cons hread _ ih =>
    obtain rfl | hmem := List.mem_cons.mp hraw
    · unfold Rows.read_line at hread
      cases hdecode : utf8Decode raw with
      | none =>
        rw [hdecode] at hread
        cases hread
      | some decoded => exact ⟨decoded, rfl⟩
    · exact ih hmem

theorem read_all_iff (rows : Rows ρ τ) (content : Bytes) (payloads : List ρ) :
    rows.plain.read_all content = .ok payloads ↔
      ∃ found, ReadsAs rows (fileRuns content) found ∧ found.reduceOption = payloads := by
  unfold Rows.read_all
  constructor
  · intro h
    cases hdecode : utf8Decode content with
    | none =>
      rw [hdecode] at h
      cases h
    | some text =>
      rw [hdecode] at h
      simp only at h
      rw [← read_lines_filter, splitLines_filter] at h
      obtain ⟨found, hfound, hpayloads⟩ := (read_lines_iff _ _ _).mp h
      exact ⟨found, (reads_of_decoded (forall₂_runs hdecode)).mpr hfound, hpayloads⟩
  · rintro ⟨found, hreads, hpayloads⟩
    obtain ⟨text, hdecode⟩ := utf8Decode_of_runs fun line hline =>
      decoded_of_reads hreads hline
    rw [hdecode]
    simp only
    rw [← read_lines_filter, splitLines_filter, read_lines_iff]
    exact ⟨found, (reads_of_decoded (forall₂_runs hdecode)).mp hreads, hpayloads⟩

theorem check_line_reads {payload : Option ρ} (h : rows.plain.read_line raw = .ok payload) :
    rows.check_line predicate raw = (payload.filter predicate).mapM rows.load := by
  unfold Rows.read_line at h
  unfold Rows.check_line
  cases hdecode : utf8Decode raw with
  | none =>
    rw [hdecode] at h
    cases h
  | some line =>
    rw [hdecode] at h
    simp only at h ⊢
    unfold Rows.read_text at h
    by_cases hblank : strip line = []
    · rw [if_pos hblank] at h ⊢
      cases h
      rfl
    · rw [if_neg hblank] at h ⊢
      have hplain : rows.plain.payload (strip line) = rows.payload (strip line) := rfl
      rw [hplain] at h
      cases hpayload : rows.payload (strip line) with
      | error error =>
        rw [hpayload] at h
        cases h
      | ok object =>
        rw [hpayload] at h
        cases h
        rw [Option.filter_some]
        simp only [bind, Except.bind]
        split
        · rfl
        · rfl

theorem check_lines_reads {found : List (Option ρ)} (h : ReadsAs rows raws found) :
    rows.check_lines predicate raws = (found.reduceOption.find? predicate).mapM rows.load := by
  unfold ReadsAs at h
  induction h with
  | nil => rfl
  | cons hread hreads ih =>
    rename_i raw payload raws found
    rw [Rows.check_lines, check_line_reads hread, ih]
    cases payload with
    | none => rfl
    | some payload =>
      rw [List.reduceOption_cons_of_some, List.find?_cons, Option.filter_some]
      cases hpredicate : predicate payload with
      | false => rfl
      | true =>
        simp only [if_true]
        unfold Option.mapM
        simp only
        cases rows.load payload <;> rfl

/-- `find_last` finds the last object of `read_all` that has the property, in whatever chunks it
reads the file. -/
theorem find_last_of_read_all {payloads : List ρ} (h : rows.plain.read_all content = .ok payloads)
    (size : ℕ+) (predicate : ρ → Bool) :
    rows.find_last content size predicate = (payloads.reverse.find? predicate).mapM rows.load := by
  obtain ⟨found, hreads, rfl⟩ := (read_all_iff rows content payloads).mp h
  have hreverse : ReadsAs rows (fileRuns content).reverse found.reverse :=
    List.forall₂_reverse_iff.mpr hreads
  rw [find_last_eq rows content size.pos, check_lines_reads hreverse]
  unfold List.reduceOption
  rw [List.filterMap_reverse]

variable {loads : Text → Loads ρ}

theorem read_line_written (line : WrittenLine loads) :
    (jsonRows loads).plain.read_line line.raw = .ok line.payload := by
  rw [read_line_of_decoded line.decodes]
  unfold Rows.read_text
  cases hpayload : line.payload with
  | none => rw [if_pos (line.blank hpayload)]
  | some payload =>
    obtain ⟨hstrip, hobject⟩ := line.written payload hpayload
    have hloads : (jsonRows loads).plain.payload (strip line.text) = .ok payload := by
      have hsame : (jsonRows loads).plain.loads (strip line.text) = .object payload := hobject
      unfold Rows.payload
      rw [hsame]
    rw [if_neg hstrip, hloads]
    rfl

theorem unbroken_written (line : WrittenLine loads) : Unbroken 0x0A 0x0D line.raw :=
  unbroken_of_utf8Decode line.decodes line.unbroken

theorem reads_some_line (line : WrittenLine loads) :
    ∃ found, ReadsAs (jsonRows loads) (someLine line.raw) found ∧
      found.reduceOption = line.payload.toList := by
  have hread := read_line_written line
  unfold someLine
  by_cases hraw : line.raw = []
  · rw [if_pos hraw]
    rw [hraw] at hread
    have hblank : none = line.payload := Except.ok.inj hread
    rw [← hblank]
    exact ⟨[], List.Forall₂.nil, rfl⟩
  · rw [if_neg hraw]
    refine ⟨[line.payload], List.Forall₂.cons hread List.Forall₂.nil, ?_⟩
    cases line.payload <;> rfl

theorem reads_written (ended : Bool) (written : List (WrittenLine loads)) :
    ∃ found, ReadsAs (jsonRows loads) (fileRuns (written_file ended written)) found ∧
      found.reduceOption = written.filterMap WrittenLine.payload := by
  have hbreak : isBreak (0x0A : UInt8) 0x0D 0x0A = true := rfl
  have hcons : ∀ (line : WrittenLine loads) (rest : Bytes) (payloads : List ρ),
      (∃ found, ReadsAs (jsonRows loads) (fileRuns rest) found ∧ found.reduceOption = payloads) →
      ∃ found, ReadsAs (jsonRows loads) (fileRuns (line.raw ++ 0x0A :: rest)) found ∧
        found.reduceOption = line.payload.toList ++ payloads := by
    rintro line rest payloads ⟨found, hfound, rfl⟩
    obtain ⟨first, hfirst, hpayload⟩ := reads_some_line line
    refine ⟨first ++ found, ?_, ?_⟩
    · unfold fileRuns
      rw [runs_append_break hbreak, runs_unbroken (unbroken_written line)]
      exact List.rel_append hfirst hfound
    · rw [List.reduceOption_append, hpayload]
  induction written with
  | nil => exact ⟨[], List.Forall₂.nil, rfl⟩
  | cons line written ih =>
    have hpayloads : (line :: written).filterMap WrittenLine.payload =
        line.payload.toList ++ written.filterMap WrittenLine.payload := by
      rw [List.filterMap_cons]
      cases line.payload <;> rfl
    rw [hpayloads]
    cases written with
    | nil =>
      rw [written_file]
      split
      · exact hcons line [] [] ⟨[], List.Forall₂.nil, rfl⟩
      · obtain ⟨found, hfound, hpayload⟩ := reads_some_line line
        unfold fileRuns
        rw [runs_unbroken (unbroken_written line)]
        exact ⟨found, hfound, hpayload.trans (List.append_nil _).symm⟩
    | cons next written => exact hcons line _ _ ih

/-- In a file that has been written, `find_last` finds the last object of `read_all` that has the
property. -/
theorem find_last_written (loads : Text → Loads ρ) (ended : Bool)
    (written : List (WrittenLine loads)) (size : ℕ+) (predicate : ρ → Bool) :
    ∃ payloads, (jsonRows loads).read_all (written_file ended written) = .ok payloads ∧
      payloads = written.filterMap WrittenLine.payload ∧
      (jsonRows loads).find_last (written_file ended written) size predicate =
        .ok (payloads.reverse.find? predicate) := by
  have hread := (read_all_iff (jsonRows loads) (written_file ended written) _).mpr
    (reads_written ended written)
  refine ⟨_, hread, rfl, ?_⟩
  rw [find_last_of_read_all hread]
  cases List.find? predicate (written.filterMap WrittenLine.payload).reverse <;> rfl

theorem unbroken_of_all {text : Text} (h : text.all fun c => !isBreak 0x0A 0x0D c) :
    Unbroken 0x0A 0x0D text := by
  intro c hc
  simpa using List.all_eq_true.mp h c hc

/-- A line as `json.dumps` writes an object. -/
def dumpedLine (raw : Bytes) (fields : JsonCode.Fields) (hcanonical : fields.Canonical)
    (hdecodes : utf8Decode raw = some (JsonCode.dumps (.obj fields)))
    (hunbroken : (JsonCode.dumps (.obj fields)).all fun c => !isBreak 0x0A 0x0D c)
    (hstrip : strip (JsonCode.dumps (.obj fields)) = JsonCode.dumps (.obj fields)) :
    WrittenLine json_loads :=
  { raw := raw
    payload := some fields
    text := JsonCode.dumps (.obj fields)
    decodes := hdecodes
    unbroken := unbroken_of_all hunbroken
    written := by
      intro row hrow
      cases hrow
      have hloads : JsonCode.loads (JsonCode.dumps (.obj fields)) = some (.obj fields) :=
        JsonCode.loads_dumps hcanonical
      rw [hstrip, json_loads, hloads]
      exact ⟨List.cons_ne_nil _ _, rfl⟩
    blank := nofun }

/-- An object with a letter of two bytes, a blank line, and an object in a line that has not been
ended. -/
def unfinishedLines : List (WrittenLine json_loads) :=
  [dumpedLine (ascii "\x7b\"a\": \"" ++ [0xC3, 0xA9] ++ ascii "\"\x7d")
      (.cons (asciiText "a") (.str [0xE9]) .nil) ⟨nofun, trivial, trivial⟩ (by decide)
      (by decide) (by decide),
    { raw := ascii "  "
      payload := none
      text := asciiText "  "
      decodes := by decide
      unbroken := unbroken_of_all (by decide)
      written := nofun
      blank := fun _ => by decide },
    dumpedLine (ascii "\x7b\"b\": 1\x7d") (.cons (asciiText "b") (.int 1) .nil)
      ⟨nofun, trivial, trivial⟩ (by decide) (by decide) (by decide)]

theorem find_last_written_unfinished :
    (jsonRows json_loads).find_last (written_file false unfinishedLines) 4
        (fun fields => asciiText "a" ∈ fields.keys) =
      .ok (some (.cons (asciiText "a") (.str [0xE9]) .nil)) := by
  obtain ⟨payloads, -, rfl, hfind⟩ := find_last_written json_loads false unfinishedLines 4
    fun fields => asciiText "a" ∈ fields.keys
  exact hfind

end ClaudeCodeBridge.Analysis.JsonlStore
