import Mathlib.Algebra.Order.BigOperators.Group.List
import ClaudeCodeBridge.Model.PairingLogs
import ClaudeCodeBridge.Model.JournalLines

/-!
# Journals read back

A journal is read back as its records exactly if no string of theirs has a character at which
`str.splitlines` divides a text and which JSON does not escape.  The pieces of a divided line are
read as nothing, or as dicts that no record is (`read_divided`).
-/

set_option autoImplicit false

namespace ClaudeCodeBridge.Analysis.Journal

open Program
open Program.JsonCode
open Model.Journal
open Model.LayoutText (splitlines splitlinesFrom isLineEnd)
open Model.Pairing (separator)
open Model.Relay (strip isSpace)

variable {record : Record} {records : List Record} {text rest : Text}

theorem le_separator (c : Fin 0x110000) (h : separator c = true) : 0x80 ≤ c.val := by
  unfold separator at h
  simp only [Bool.or_eq_true, decide_eq_true_eq] at h
  obtain (rfl | rfl) | rfl := h <;> decide

theorem isLineEnd_eq_separator {c : Fin 0x110000} (h : 0x20 ≤ c.val) :
    isLineEnd c = separator c := by
  unfold isLineEnd separator
  have hvalue : ∀ d : Fin 0x110000, (c = d) ↔ c.val = d.val := fun d => Fin.ext_iff
  rw [Bool.eq_iff_iff]
  simp only [Bool.or_eq_true, Bool.and_eq_true, decide_eq_true_eq, hvalue]
  have h1 : (0x85 : Fin 0x110000).val = 0x85 := rfl
  have h2 : (0x2028 : Fin 0x110000).val = 0x2028 := rfl
  have h3 : (0x2029 : Fin 0x110000).val = 0x2029 := rfl
  rw [h1, h2, h3]
  omega

theorem splitlinesFrom_line (carry : Text) (htext : ∀ c ∈ text, 0x20 ≤ c.val) (rest : Text) :
    splitlinesFrom false carry (text ++ 0x0A :: rest) =
      piecesFrom separator carry text ++ splitlines rest := by
  induction text generalizing carry with
  | nil => rfl
  | cons c text ih =>
    have hc := htext c List.mem_cons_self
    have htail : ∀ d ∈ text, 0x20 ≤ d.val := fun d hd => htext d (List.mem_cons_of_mem c hd)
    have hreturn : decide (c.val = 0x0D) = false := decide_eq_false (by omega)
    rw [List.cons_append, splitlinesFrom, if_neg (by simp), isLineEnd_eq_separator hc, piecesFrom]
    split
    · rw [hreturn, ih [] htail, List.cons_append]
    · exact ih _ htail

theorem canonical_obj (record : Record) : (Value.obj record.fields).Canonical := record.canonical

theorem splitlines_journal (records : List Record) :
    splitlines (records.flatMap line) =
      records.flatMap fun record => piecesFrom separator [] (dumps (.obj record.fields)) := by
  induction records with
  | nil => rfl
  | cons record records ih =>
    rw [List.flatMap_cons, List.flatMap_cons, ← ih]
    unfold line
    rw [List.append_assoc, List.singleton_append]
    exact splitlinesFrom_line [] (written_dumps _ (canonical_obj record)).printable _

/-- What makes a function of lines a reader of journals: it reads the line of a record, and no
record where a line has been divided. -/
structure Reader (read : Text → Option Fields) : Prop where
  whole : ∀ record : Record, read (dumps (.obj record.fields)) = some record.fields
  piece : ∀ piece fields,
    (quoteState .outside piece = .inside ∨ Tidy separator .inside piece) →
      read piece = some fields → ¬ fields.Named

theorem payload_some {fields : Fields} (h : payload text = some fields) :
    loads text = some (.obj fields) := by
  unfold payload at h
  split at h
  · rename_i found hloads
    cases h
    exact hloads
  · cases h

theorem payload_line (record : Record) : payload (dumps (.obj record.fields)) =
    some record.fields := by
  unfold payload
  rw [loads_dumps (canonical_obj record)]

theorem payload_piece {fields : Fields}
    (hpiece : quoteState .outside text ≠ .outside ∨ Tidy separator .inside text)
    (h : payload text = some fields) : ¬ fields.Named := by
  have hloads := payload_some h
  obtain hopen | htidy := hpiece
  · rw [loads_open hopen] at hloads
    cases hloads
  · exact loads_inside htidy hloads

theorem reader_payload : Reader payload where
  whole := payload_line
  piece := by
    intro piece fields hpiece hread
    refine payload_piece ?_ hread
    obtain hopen | htidy := hpiece
    · rw [hopen]
      exact Or.inl (by decide)
    · exact Or.inr htidy

theorem strip_split (text : Text) :
    ∃ before after, text = before ++ (strip text ++ after) ∧ Plain before ∧ Plain after := by
  have hfirst := List.takeWhile_append_dropWhile (p := isSpace) (l := text)
  have hlast := List.takeWhile_append_dropWhile (p := isSpace) (l := (text.dropWhile isSpace).reverse)
  refine ⟨text.takeWhile isSpace, ((text.dropWhile isSpace).reverse.takeWhile isSpace).reverse,
    ?_, plain_takeWhile (by decide) (by decide) text, ?_⟩
  · have hreverse := congrArg List.reverse hlast
    rw [List.reverse_append, List.reverse_reverse] at hreverse
    unfold strip
    rw [hreverse, hfirst]
  · intro c hc
    exact plain_takeWhile (p := isSpace) (by decide) (by decide) _ c (List.mem_reverse.mp hc)

theorem strip_ends {c d : Fin 0x110000} (hc : isSpace c = false) (hd : isSpace d = false)
    (middle : Text) : strip (c :: (middle ++ [d])) = c :: (middle ++ [d]) := by
  unfold strip
  rw [List.dropWhile_cons_of_neg (by rw [hc]; simp)]
  rw [List.reverse_cons, List.reverse_append, List.reverse_singleton, List.singleton_append,
    List.cons_append, List.dropWhile_cons_of_neg (by rw [hd]; simp)]
  simp

def read_stripped (text : Text) : Option Fields :=
  if strip text = [] then none else payload (strip text)

theorem reader_stripped : Reader read_stripped where
  whole := by
    intro record
    have hstrip : strip (dumps (.obj record.fields)) = dumps (.obj record.fields) := by
      rw [dumps]
      exact strip_ends (by decide) (by decide) _
    unfold read_stripped
    rw [hstrip, if_neg (by rw [dumps]; exact List.cons_ne_nil _ _), payload_line]
  piece := by
    intro piece fields hpiece hread
    unfold read_stripped at hread
    split at hread
    · cases hread
    · refine payload_piece ?_ hread
      obtain ⟨before, after, hsplit, hbefore, hafter⟩ := strip_split piece
      obtain hopen | htidy := hpiece
      · refine Or.inl fun hstate => ?_
        rw [hsplit, quoteState_append, quoteState_append, quoteState_plain (by decide) hbefore,
          hstate, quoteState_plain (by decide) hafter] at hopen
        cases hopen
      · rw [hsplit] at htidy
        have hinner := (tidy_append htidy).2
        rw [quoteState_plain (by decide) hbefore] at hinner
        exact Or.inr (tidy_append hinner).1

/-- No string has a character that divides a line. -/
def Undivided (record : Record) : Prop :=
  ∀ text ∈ record.fields.texts, ∀ c ∈ text, separator c = false

theorem undivided_iff (record : Record) :
    Undivided record ↔ ∀ c ∈ dumps (.obj record.fields), separator c = false := by
  constructor
  · intro h c hc
    rw [Bool.eq_false_iff]
    intro hcut
    obtain ⟨text, htext, hmem⟩ := (mem_dumps_iff (canonical_obj record) (le_separator c hcut)).mp hc
    rw [h text htext c hmem] at hcut
    cases hcut
  · intro h text htext c hc
    rw [Bool.eq_false_iff]
    intro hcut
    have hmem := (mem_dumps_iff (canonical_obj record) (le_separator c hcut)).mpr ⟨text, htext, hc⟩
    rw [h c hmem] at hcut
    cases hcut

variable {read : Text → Option Fields}

theorem read_undivided (hread : Reader read) (h : Undivided record) :
    (piecesFrom separator [] (dumps (.obj record.fields))).filterMap read = [record.fields] := by
  rw [pieces_uncut [] ((undivided_iff record).mp h), List.nil_append]
  simp only [List.filterMap_cons, hread.whole, List.filterMap_nil]

theorem read_divided (hread : Reader read) (h : ¬ Undivided record) :
    ∀ fields ∈ (piecesFrom separator [] (dumps (.obj record.fields))).filterMap read,
      ¬ fields.Named := by
  have hcut : ∃ c ∈ dumps (.obj record.fields), separator c = true := by
    by_contra hnone
    apply h
    rw [undivided_iff]
    intro c hc
    rw [Bool.eq_false_iff]
    exact fun hcut => hnone ⟨c, hc, hcut⟩
  have htidy : Tidy separator .outside ([] ++ dumps (.obj record.fields)) := by
    have htidy := tidy_dumps le_separator (.obj record.fields) record.canonical []
      (fun d hd => by cases hd) trivial
    rwa [List.append_nil] at htidy
  intro fields hfields
  obtain ⟨piece, hpiece, hfound⟩ := List.mem_filterMap.mp hfields
  exact hread.piece piece fields (pieces_cut le_separator htidy hcut piece hpiece) hfound

/-- **The records that are read** are those that were written exactly if no line is divided. -/
theorem read_journal (hread : Reader read) (records : List Record) :
    (splitlines (records.flatMap line)).filterMap read = records.map Record.fields ↔
      ∀ record ∈ records, Undivided record := by
  rw [splitlines_journal, List.filterMap_flatMap]
  constructor
  · intro h
    -- all that is read is named, so that a divided line has nothing in it
    have hnamed : ∀ record ∈ records, ∀ fields ∈
        (piecesFrom separator [] (dumps (.obj record.fields))).filterMap read, fields.Named := by
      intro record hrecord fields hfields
      have hmem : fields ∈ records.map Record.fields := by
        rw [← h]
        exact List.mem_flatMap.mpr ⟨record, hrecord, hfields⟩
      obtain ⟨other, -, rfl⟩ := List.mem_map.mp hmem
      exact other.named
    have hlength : ∀ record ∈ records,
        ((piecesFrom separator [] (dumps (.obj record.fields))).filterMap read).length ≤ 1 := by
      intro record hrecord
      by_cases hundivided : Undivided record
      · rw [read_undivided hread hundivided]
        exact le_refl _
      · rw [List.eq_nil_iff_forall_not_mem.mpr fun fields hfields =>
          read_divided hread hundivided fields hfields (hnamed record hrecord fields hfields)]
        exact Nat.zero_le _
    intro record hrecord
    by_contra hdivided
    have hnil : (piecesFrom separator [] (dumps (.obj record.fields))).filterMap read = [] :=
      List.eq_nil_iff_forall_not_mem.mpr fun fields hfields =>
        read_divided hread hdivided fields hfields (hnamed record hrecord fields hfields)
    have hcount := congrArg List.length h
    rw [List.length_flatMap, List.length_map] at hcount
    have hless := List.sum_lt_sum _ (fun _ => 1) hlength
      ⟨record, hrecord, by rw [hnil]; exact Nat.zero_lt_one⟩
    have hones : (records.map fun _ => 1).sum = records.length := by simp
    rw [hcount, hones] at hless
    exact lt_irrefl _ hless
  · intro h
    induction records with
    | nil => rfl
    | cons record records ih =>
      rw [List.flatMap_cons, read_undivided hread (h record List.mem_cons_self),
        ih fun other hother => h other (List.mem_cons_of_mem record hother)]
      rfl

def Encodable (record : Record) : Prop :=
  ∀ text ∈ record.fields.texts, ∀ c ∈ text, isSurrogate c = false

theorem encoded_ok : encoded text = .ok text ↔ ∀ c ∈ text, isSurrogate c = false := by
  unfold encoded
  constructor
  · intro h c hc
    cases hfind : text.find? isSurrogate with
    | none => simpa using List.find?_eq_none.mp hfind c hc
    | some character =>
      rw [hfind] at h
      cases h
  · intro h
    rw [List.find?_eq_none.mpr fun c hc => by rw [h c hc]; simp]

theorem ok_of_encoded {written : Text} (h : encoded text = .ok written) :
    written = text ∧ ∀ c ∈ text, isSurrogate c = false := by
  have hsame : written = text := by
    unfold encoded at h
    split at h
    · cases h
    · cases h
      rfl
  rw [hsame] at h
  exact ⟨hsame, encoded_ok.mp h⟩

theorem encodable_iff (record : Record) :
    Encodable record ↔ ∀ c ∈ line record, isSurrogate c = false := by
  have hhigh : ∀ c, isSurrogate c = true → 0x80 ≤ c.val := by
    intro c hc
    unfold isSurrogate at hc
    simp only [Bool.and_eq_true, decide_eq_true_eq] at hc
    omega
  constructor
  · intro h c hc
    rw [Bool.eq_false_iff]
    intro hsurrogate
    obtain hmem | hbreak := List.mem_append.mp hc
    · obtain ⟨text, htext, hmem⟩ :=
        (mem_dumps_iff (canonical_obj record) (hhigh c hsurrogate)).mp hmem
      rw [h text htext c hmem] at hsurrogate
      cases hsurrogate
    · rw [List.mem_singleton.mp hbreak] at hsurrogate
      exact absurd hsurrogate (by decide)
  · intro h text htext c hc
    rw [Bool.eq_false_iff]
    intro hsurrogate
    have hmem := (mem_dumps_iff (canonical_obj record) (hhigh c hsurrogate)).mpr ⟨text, htext, hc⟩
    rw [h c (List.mem_append_left _ hmem)] at hsurrogate
    cases hsurrogate

theorem append_from (content : Text) (h : ∀ record ∈ records, Encodable record) :
    records.foldlM append_jsonl content = .ok (content ++ records.flatMap line) := by
  induction records generalizing content with
  | nil => rw [List.flatMap_nil, List.append_nil]; rfl
  | cons record records ih =>
    have hline := encoded_ok.mpr ((encodable_iff record).mp (h record List.mem_cons_self))
    have happend : append_jsonl content record = .ok (content ++ line record) := by
      unfold append_jsonl
      rw [hline]
      rfl
    rw [List.foldlM_cons, happend, List.flatMap_cons, ← List.append_assoc]
    exact ih _ fun other hother => h other (List.mem_cons_of_mem record hother)

theorem encodable_of_append {content final : Text}
    (h : records.foldlM append_jsonl content = .ok final) : ∀ record ∈ records, Encodable record := by
  induction records generalizing content with
  | nil => exact fun record hrecord => absurd hrecord List.not_mem_nil
  | cons record records ih =>
    rw [List.foldlM_cons] at h
    obtain ⟨next, hnext, hrest⟩ := bind_ok.mp h
    intro other hother
    obtain rfl | hother := List.mem_cons.mp hother
    · obtain ⟨written, hwritten, -⟩ := bind_ok.mp hnext
      exact (encodable_iff other).mpr (ok_of_encoded hwritten).2
    · exact ih hrest other hother

/-- No string has a character that ends a line unescaped, or one that is not encoded. -/
def OneLine (record : Record) : Prop :=
  ∀ text ∈ record.fields.texts, ∀ c ∈ text, separator c = false ∧ isSurrogate c = false

theorem oneLine_iff (record : Record) : OneLine record ↔ Undivided record ∧ Encodable record := by
  constructor
  · intro h
    exact ⟨fun text htext c hc => (h text htext c hc).1, fun text htext c hc => (h text htext c hc).2⟩
  · rintro ⟨hundivided, hencodable⟩ text htext c hc
    exact ⟨hundivided text htext c hc, hencodable text htext c hc⟩

theorem pairing_journal (records : List Record) :
    (append_all records).map read_jsonl = .ok (records.map Record.fields) ↔
      ∀ record ∈ records, OneLine record := by
  constructor
  · intro h
    cases hwritten : append_all records with
    | error e =>
      rw [hwritten] at h
      cases h
    | ok content =>
      have hencodable := encodable_of_append hwritten
      have hcontent := append_from [] hencodable
      rw [List.nil_append] at hcontent
      unfold append_all at h
      rw [hcontent] at h
      have hread := (read_journal reader_stripped records).mp (Except.ok.inj h)
      exact fun record hrecord =>
        (oneLine_iff record).mpr ⟨hread record hrecord, hencodable record hrecord⟩
  · intro h
    have hcontent := append_from [] fun record hrecord => ((oneLine_iff record).mp (h record hrecord)).2
    rw [List.nil_append] at hcontent
    unfold append_all
    rw [hcontent]
    exact congrArg Except.ok ((read_journal reader_stripped records).mpr fun record hrecord =>
      ((oneLine_iff record).mp (h record hrecord)).1)

theorem notification_journal (events : List MobileNotificationEvent) :
    (write_jsonl events).map read_notifications =
        .ok (events.map fun event => event.to_payload.fields) ↔
      ∀ event ∈ events, OneLine event.to_payload := by
  have hlines : (events.flatMap fun event => line event.to_payload) =
      (events.map MobileNotificationEvent.to_payload).flatMap line := by
    rw [List.flatMap_map]
  have hread := read_journal reader_payload (events.map MobileNotificationEvent.to_payload)
  rw [List.map_map] at hread
  constructor
  · intro h
    cases hwritten : write_jsonl events with
    | error e =>
      rw [hwritten] at h
      cases h
    | ok content =>
      obtain ⟨hcontent, hsurrogates⟩ := ok_of_encoded hwritten
      rw [hwritten, hcontent, hlines] at h
      intro event hevent
      have hmem := List.mem_map_of_mem (f := MobileNotificationEvent.to_payload) hevent
      refine (oneLine_iff _).mpr ⟨hread.mp (Except.ok.inj h) _ hmem, (encodable_iff _).mpr ?_⟩
      exact fun c hc => hsurrogates c (List.mem_flatMap.mpr ⟨event, hevent, hc⟩)
  · intro h
    have hwritten : write_jsonl events = .ok (events.flatMap fun event => line event.to_payload) := by
      apply encoded_ok.mpr
      intro c hc
      obtain ⟨event, hevent, hc⟩ := List.mem_flatMap.mp hc
      exact (encodable_iff _).mp ((oneLine_iff _).mp (h event hevent)).2 c hc
    rw [hwritten, hlines]
    refine congrArg Except.ok (hread.mpr ?_)
    intro record hrecord
    obtain ⟨event, hevent, rfl⟩ := List.mem_map.mp hrecord
    exact ((oneLine_iff _).mp (h event hevent)).1

/-- **Journals are read back as they were written exactly if no string of a record has one of the
characters U+0085, U+2028 and U+2029**, or a surrogate, which is not written at all. -/
theorem journals_read_back (records : List Record) (events : List MobileNotificationEvent) :
    ((append_all records).map read_jsonl = .ok (records.map Record.fields) ↔
      ∀ record ∈ records, OneLine record) ∧
    ((write_jsonl events).map read_notifications =
        .ok (events.map fun event => event.to_payload.fields) ↔
      ∀ event ∈ events, OneLine event.to_payload) :=
  ⟨pairing_journal records, notification_journal events⟩

/-- A project's name with a line separator in it. -/
def separated : Record where
  fields := .cons (asciiText "project_id") (.str [0x61, 0x2028, 0x62]) .nil
  canonical := ⟨fun _ hother => (List.not_mem_nil hother).elim, trivial, trivial⟩
  named := by
    refine ⟨List.cons_ne_nil _ _, fun key hkey => ?_⟩
    rw [List.mem_singleton.mp hkey]
    exact ⟨_, rfl, rfl⟩

/-- A record whose text has a line separator is not read back. -/
theorem separated_lost :
    (append_all [separated]).map read_jsonl ≠ .ok ([separated].map Record.fields) := by
  intro h
  have hline := (pairing_journal [separated]).mp h separated List.mem_cons_self
  have hname : ([0x61, 0x2028, 0x62] : Text) ∈ separated.fields.texts :=
    List.mem_cons_of_mem _ List.mem_cons_self
  have hcut := (hline _ hname 0x2028 (by simp)).1
  exact absurd hcut (by decide)

end ClaudeCodeBridge.Analysis.Journal
