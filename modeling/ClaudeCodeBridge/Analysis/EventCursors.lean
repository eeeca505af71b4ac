import ClaudeCodeBridge.Model.JobEvents
import ClaudeCodeBridge.Analysis.JsonlReads

/-!
# Event cursors

Of a file of written lines, `read_since` skips as many objects as the cursor says and returns the
others (`read_since_written`).  A cursor that a read has returned is the number of objects that
were there then, so that whoever passes it on is given every event once, in the order of the file
(`event_reads_partition`).
-/

set_option autoImplicit false

namespace ClaudeCodeBridge.Analysis.JobEvents

open Program
open Model.JsonlStore
open Model.JobEvents
open Analysis.JsonlStore
open Model.Relay (strip)

variable {ρ α : Type}

theorem post_init_self (event : JobEvent α) :
    JobEvent.post_init event.event_id event.job_id event.agent_name event.type event.payload
      event.timestamp event.target_kind.value event.target_name = .ok event := by
  have hof : TargetKind.of_value event.target_kind.value = .ok event.target_kind := by
    cases event.target_kind
    rfl
  have hname : (if event.target_name = [] then event.agent_name else event.target_name) =
      event.target_name := by
    rw [event.same_name, ite_self]
  unfold JobEvent.post_init
  rw [dif_neg event.event_id_ne_nil, dif_neg event.job_id_ne_nil, dif_neg event.type_ne_nil]
  simp only [hof]
  split
  · rename_i herror
    rw [hname, event.normalized] at herror
    cases herror
  · rename_i normalized hnormalized
    rw [hname, event.normalized] at hnormalized
    cases hnormalized
    obtain ⟨_, _, _, _, _, _, _, _, _, _, _, hsame, _⟩ := event
    cases hsame
    rfl

variable {row : Record α} {event : JobEvent α}

theorem job_event_from_to_record (h : ∀ key, row.get key = event.to_record.get key) :
    job_event_from_record row = .ok event := by
  have hget : ∀ {key : Text} {value : RecordField α}, (key, value) ∈ event.to_record.items →
      row.get key = some value := fun hmem => (h _).trans (Dict.get_of_mem hmem)
  have hversion : row.get (asciiText "schema_version") = some (.number 2) :=
    hget (by simp [JobEvent.to_record])
  have htype : row.get (asciiText "record_type") = some (.text job_event) :=
    hget (by simp [JobEvent.to_record])
  have hevent_id : row.get (asciiText "event_id") = some (.text event.event_id) :=
    hget (by simp [JobEvent.to_record])
  have hjob_id : row.get (asciiText "job_id") = some (.text event.job_id) :=
    hget (by simp [JobEvent.to_record])
  have hagent : row.get (asciiText "agent_name") = some (.text event.agent_name) :=
    hget (by simp [JobEvent.to_record])
  have hkind : row.get (asciiText "target_kind") =
      some (.text event.target_kind.value) := hget (by simp [JobEvent.to_record])
  have htarget : row.get (asciiText "target_name") = some (.text event.target_name) :=
    hget (by simp [JobEvent.to_record])
  have hevent : row.get (asciiText "type") = some (.text event.type) :=
    hget (by simp [JobEvent.to_record])
  have hpayload : row.get (asciiText "payload") = some (.members event.payload) :=
    hget (by simp [JobEvent.to_record])
  have htimestamp : row.get (asciiText "timestamp") = some (.text event.timestamp) :=
    hget (by simp [JobEvent.to_record])
  unfold job_event_from_record Record.validate Record.has_type Record.required Record.optional
    Record.payload
  simp only [hversion, htype, hevent_id, hjob_id, hagent, hkind, htarget, hevent, hpayload,
    htimestamp, if_true, decide_true, bind, Except.bind]
  exact post_init_self event

theorem has_type_to_record (h : ∀ key, row.get key = event.to_record.get key) :
    row.has_type job_event = true := by
  have htype : row.get (asciiText "record_type") = some (.text job_event) :=
    (h _).trans (Dict.get_of_mem (by simp [JobEvent.to_record]))
  unfold Record.has_type
  simp only [htype, decide_true]

theorem since_lines_cons_blank (rows : Rows ρ ρ) {line : Text} (h : strip line = [])
    (start_line current : ℤ) (lines : List Text) :
    rows.since_lines start_line current (line :: lines) =
      rows.since_lines start_line current lines := by
  rw [Rows.since_lines, if_pos h]

theorem since_lines_filter (rows : Rows ρ ρ) (start_line current : ℤ) (lines : List Text) :
    rows.since_lines start_line current (lines.filter fun line => line ≠ []) =
      rows.since_lines start_line current lines := by
  induction lines generalizing current with
  | nil => rfl
  | cons line lines ih =>
    rw [List.filter_cons]
    by_cases hline : line = []
    · rw [if_neg (by simp [hline]), ih, hline, since_lines_cons_blank]
      rfl
    · rw [if_pos (by simp [hline]), Rows.since_lines, Rows.since_lines]
      simp only [ih]

theorem read_text_cases {rows : Rows ρ ρ} {line : Text} {payload : Option ρ}
    (h : rows.plain.read_text line = .ok payload) :
    (strip line = [] ∧ payload = none) ∨
      ∃ row, strip line ≠ [] ∧ rows.plain.payload (strip line) = .ok row ∧ payload = some row := by
  unfold Rows.read_text at h
  by_cases hblank : strip line = []
  · rw [if_pos hblank] at h
    cases h
    exact Or.inl ⟨hblank, rfl⟩
  · rw [if_neg hblank] at h
    cases hpayload : rows.plain.payload (strip line) with
    | error error =>
      rw [hpayload] at h
      cases h
    | ok row =>
      rw [hpayload] at h
      cases h
      exact Or.inr ⟨row, hblank, rfl, rfl⟩

/-- The lines that are read are counted from the current one, and the rows after the first ones
are returned. -/
theorem since_lines_reads {rows : Rows ρ ρ} {lines : List Text} {found : List (Option ρ)}
    (h : List.Forall₂ (fun line payload => rows.plain.read_text line = .ok payload) lines found)
    (start_line current : ℤ) :
    rows.plain.since_lines start_line current lines =
      .ok (current + found.reduceOption.length,
        found.reduceOption.drop (start_line - current).toNat) := by
  induction h generalizing current with
  | nil => simp [Rows.since_lines, List.reduceOption_nil]
  | @cons line payload lines found hline _ ih =>
    obtain ⟨hblank, rfl⟩ | ⟨row, hblank, hpayload, rfl⟩ := read_text_cases hline
    · rw [since_lines_cons_blank _ hblank, ih, List.reduceOption_cons_of_none]
    · rw [Rows.since_lines, if_neg hblank, ih, List.reduceOption_cons_of_some, List.length_cons]
      have hcount : current + 1 + (found.reduceOption.length : ℤ) =
          current + ((found.reduceOption.length + 1 : ℕ) : ℤ) := by
        omega
      by_cases hskip : current + 1 ≤ start_line
      · have hdrop : (start_line - current).toNat = (start_line - (current + 1)).toNat + 1 := by
          omega
        rw [if_pos hskip, hcount, hdrop, List.drop_succ_cons]
      · have hnow : (start_line - current).toNat = 0 := by omega
        have hlater : (start_line - (current + 1)).toNat = 0 := by omega
        rw [if_neg hskip, hcount, hnow, hlater, hpayload]
        rfl

/-- Of a file of written lines, the objects are counted, and those after the first ones are
returned. -/
theorem read_since_written {loads : Text → Loads ρ} (written : List (WrittenLine loads))
    {start_line : ℤ} (hstart : 0 ≤ start_line) :
    (jsonRows loads).read_since (some (written_file true written)) start_line =
      .ok (((written.filterMap WrittenLine.payload).length : ℤ),
        (written.filterMap WrittenLine.payload).drop start_line.toNat) := by
  obtain ⟨found, hreads, hfound⟩ := reads_written true written
  obtain ⟨text, hdecode⟩ := utf8Decode_of_runs fun line hline => decoded_of_reads hreads hline
  have hlines := since_lines_reads ((reads_of_decoded (forall₂_runs hdecode)).mp hreads)
    start_line 0
  rw [← splitLines_filter, since_lines_filter, Int.zero_add, Int.sub_zero, hfound] at hlines
  have hplain : (jsonRows loads).plain = jsonRows loads := rfl
  rw [hplain] at hlines
  unfold Rows.read_since
  rw [if_neg (by omega)]
  simp only [hdecode, hlines]
  rfl

variable {loads : Text → Loads (Record α)}

def fileOf (lines : List (AppendedLine loads)) : Bytes :=
  written_file true (lines.map AppendedLine.toWrittenLine)

def payloadsOf (lines : List (AppendedLine loads)) : List (Record α) :=
  lines.filterMap fun line => line.payload

def eventsOf (lines : List (AppendedLine loads)) : List (JobEvent α) :=
  lines.filterMap AppendedLine.event

theorem written_file_append (lines : List (WrittenLine loads)) (line : WrittenLine loads) :
    written_file true (lines ++ [line]) = written_file true lines ++ (line.raw ++ [0x0A]) := by
  have hcons : ∀ (first : WrittenLine loads) (rest : List (WrittenLine loads)),
      written_file true (first :: rest) = first.raw ++ 0x0A :: written_file true rest := by
    intro first rest
    cases rest <;> rfl
  induction lines with
  | nil => rfl
  | cons first lines ih => rw [List.cons_append, hcons, hcons, ih, List.append_assoc,
      List.cons_append]

theorem fileOf_append (lines : List (AppendedLine loads)) (line : AppendedLine loads) :
    fileOf (lines ++ [line]) = fileOf lines ++ (line.raw ++ [0x0A]) := by
  unfold fileOf
  rw [List.map_append, List.map_singleton, written_file_append]

theorem events_of_payloads (lines : List (AppendedLine loads)) :
    events_of_rows (payloadsOf lines) = .ok (eventsOf lines) := by
  induction lines with
  | nil => rfl
  | cons line lines ih =>
    unfold payloadsOf eventsOf at ih ⊢
    rw [List.filterMap_cons, List.filterMap_cons]
    cases hevent : line.event with
    | some event =>
      obtain ⟨row, hrow, hsame⟩ := line.of_event event hevent
      rw [hrow]
      simp only
      rw [events_of_rows, has_type_to_record hsame, job_event_from_to_record hsame, ih]
      rfl
    | none =>
      cases hpayload : line.payload with
      | none => exact ih
      | some row =>
        simp only
        rw [events_of_rows, line.of_other hevent row hpayload]
        exact ih

theorem read_since_target_after (seen fresh : List (AppendedLine loads)) :
    read_since_target loads (some (fileOf (seen ++ fresh))) (payloadsOf seen).length =
      .ok (((payloadsOf (seen ++ fresh)).length : ℤ), eventsOf fresh) := by
  have hpayloads : ((seen ++ fresh).map AppendedLine.toWrittenLine).filterMap
      WrittenLine.payload = payloadsOf seen ++ payloadsOf fresh := by
    rw [List.filterMap_map, List.filterMap_append]
    rfl
  have hread := read_since_written ((seen ++ fresh).map AppendedLine.toWrittenLine)
    (Int.natCast_nonneg (payloadsOf seen).length)
  rw [hpayloads, Int.toNat_natCast, List.drop_left] at hread
  have hlength : payloadsOf (seen ++ fresh) = payloadsOf seen ++ payloadsOf fresh :=
    List.filterMap_append
  unfold read_since_target fileOf
  rw [hlength]
  unfold jsonRows at hread
  simp only [hread, events_of_payloads, Except.mapError, bind, Except.bind]
  rfl

/-- The watch of a file before its first read. -/
def watchOf (lines : Option (List (AppendedLine loads))) : Watch α :=
  { content := lines.map fileOf, cursor := 0, returned := [] }

def linesAfter (lines : Option (List (AppendedLine loads))) :
    List (Step loads) → Option (List (AppendedLine loads))
  | [] => lines
  | .append line :: steps => linesAfter (some (lines.getD [] ++ [line])) steps
  | .read :: steps => linesAfter lines steps

/-- The file has some lines, and the reads have returned the events of the first ones, up to the
cursor. -/
structure Follows (lines : Option (List (AppendedLine loads))) (seen : List (AppendedLine loads))
    (watch : Watch α) : Prop where
  content : watch.content = lines.map fileOf
  begins : seen <+: lines.getD []
  cursor : watch.cursor = (payloadsOf seen).length
  returned : watch.returned.flatten = eventsOf seen

theorem follows_watchOf (lines : Option (List (AppendedLine loads))) :
    Follows lines [] (watchOf lines) :=
  { content := rfl, begins := List.nil_prefix, cursor := rfl, returned := rfl }

variable {lines : Option (List (AppendedLine loads))} {seen : List (AppendedLine loads)}

theorem Follows.append {watch : Watch α} (h : Follows lines seen watch)
    (line : AppendedLine loads) :
    ∃ next, watch.step (.append line) = .ok next ∧ next.returned = watch.returned ∧
      Follows (some (lines.getD [] ++ [line])) seen next := by
  refine ⟨_, rfl, rfl, ?_⟩
  constructor
  · simp only [h.content, Option.map_some, Option.some_inj]
    rw [fileOf_append]
    cases lines <;> rfl
  · rw [Option.getD_some]
    exact h.begins.trans (List.prefix_append _ _)
  · exact h.cursor
  · exact h.returned

theorem Follows.read {watch : Watch α} (h : Follows lines seen watch) :
    ∃ next, watch.step (Step.read : Step loads) = .ok next ∧ Follows lines (lines.getD []) next := by
  obtain ⟨fresh, hfresh⟩ := h.begins
  cases lines with
  | none =>
    have hnil : seen = [] := (List.append_eq_nil_iff.mp hfresh).1
    subst hnil
    have hread : read_since_target loads watch.content watch.cursor = .ok (0, []) := by
      rw [h.content, h.cursor]
      rfl
    refine ⟨{ watch with cursor := 0, returned := watch.returned ++ [[]] }, ?_, ?_⟩
    · unfold Watch.step
      rw [hread]
      rfl
    · constructor
      · exact h.content
      · exact List.prefix_refl _
      · rfl
      · rw [List.flatten_append, h.returned]
        rfl
  | some lines =>
    rw [Option.getD_some] at hfresh
    subst hfresh
    have hread : read_since_target loads watch.content watch.cursor =
        .ok (((payloadsOf (seen ++ fresh)).length : ℤ), eventsOf fresh) := by
      rw [h.content, h.cursor]
      exact read_since_target_after seen fresh
    refine ⟨{ watch with
      cursor := (payloadsOf (seen ++ fresh)).length
      returned := watch.returned ++ [eventsOf fresh] }, ?_, ?_⟩
    · unfold Watch.step
      rw [hread]
      rfl
    · constructor
      · exact h.content
      · exact List.prefix_refl _
      · rfl
      · rw [List.flatten_append, h.returned, List.flatten_singleton, Option.getD_some]
        exact List.filterMap_append.symm

theorem Follows.run {watch : Watch α} (h : Follows lines seen watch) (steps : List (Step loads)) :
    ∃ next seen', watch.run steps = .ok next ∧ Follows (linesAfter lines steps) seen' next := by
  induction steps generalizing lines seen watch with
  | nil => exact ⟨watch, seen, rfl, h⟩
  | cons step steps ih =>
    cases step with
    | append line =>
      obtain ⟨next, hstep, -, hnext⟩ := h.append line
      obtain ⟨last, seen', hrun, hlast⟩ := ih hnext
      refine ⟨last, seen', ?_, hlast⟩
      rw [Watch.run, hstep]
      exact hrun
    | read =>
      obtain ⟨next, hstep, hnext⟩ := h.read
      obtain ⟨last, seen', hrun, hlast⟩ := ih hnext
      refine ⟨last, seen', ?_, hlast⟩
      rw [Watch.run, hstep]
      exact hrun

theorem Follows.run_appends {watch : Watch α} (h : Follows lines seen watch)
    (appended : List (AppendedLine loads)) :
    ∃ next, watch.run (appended.map Step.append) = .ok next ∧ next.returned = watch.returned := by
  induction appended generalizing lines watch with
  | nil => exact ⟨watch, rfl, rfl⟩
  | cons line appended ih =>
    obtain ⟨next, hstep, hreturned, hnext⟩ := h.append line
    obtain ⟨last, hrun, hlast⟩ := ih hnext
    refine ⟨last, ?_, hlast.trans hreturned⟩
    rw [List.map_cons, Watch.run, hstep]
    exact hrun

theorem run_append (watch : Watch α) (steps steps' : List (Step loads)) :
    watch.run (steps ++ steps') = (watch.run steps).bind fun next => next.run steps' := by
  induction steps generalizing watch with
  | nil => rfl
  | cons step steps ih =>
    rw [List.cons_append, Watch.run, Watch.run]
    cases watch.step step with
    | error error => rfl
    | ok next => exact ih next

/-- Reads that start at line 0 and pass the line number on succeed, and together they return the
events that the file holds at the last of them, each once and in order. -/
theorem event_reads_partition (lines : Option (List (AppendedLine loads)))
    (before : List (Step loads)) (after : List (AppendedLine loads)) :
    ∃ (there watch : Watch α) (line_no : ℤ),
      (watchOf lines).run before = .ok there ∧
      there.content = (linesAfter lines before).map fileOf ∧
      (watchOf lines).run (before ++ .read :: after.map .append) = .ok watch ∧
      watch.returned.flatten = eventsOf ((linesAfter lines before).getD []) ∧
      read_since_target loads there.content 0 = .ok (line_no, watch.returned.flatten) := by
  obtain ⟨there, seen, hbefore, hthere⟩ := (follows_watchOf lines).run before
  obtain ⟨next, hread, hnext⟩ := hthere.read
  obtain ⟨watch, hafter, hreturned⟩ := hnext.run_appends after
  have hevents : watch.returned.flatten = eventsOf ((linesAfter lines before).getD []) := by
    rw [hreturned, hnext.returned]
  refine ⟨there, watch, (payloadsOf ((linesAfter lines before).getD [])).length, hbefore,
    hthere.content, ?_, hevents, ?_⟩
  · rw [run_append, hbefore]
    change there.run (.read :: after.map .append) = .ok watch
    rw [Watch.run, hread]
    exact hafter
  · rw [hthere.content, hevents]
    cases linesAfter lines before with
    | none => rfl
    | some lines => exact read_since_target_after [] lines

open JsonCode (Value Fields)

def replyEvent : JobEvent Value :=
  { event_id := asciiText "e"
    job_id := asciiText "j"
    agent_name := asciiText "a"
    type := asciiText "t"
    payload := Dict.empty.set (asciiText "r") (.str [0xE9])
    timestamp := asciiText "s"
    target_kind := .agent
    target_name := asciiText "a"
    event_id_ne_nil := by decide
    job_id_ne_nil := by decide
    type_ne_nil := by decide
    same_name := rfl
    normalized := by decide }

def replyFields : Fields :=
  [("agent_name", Value.str (asciiText "a")), ("event_id", .str (asciiText "e")),
    ("job_id", .str (asciiText "j")), ("payload", .obj (.cons (asciiText "r") (.str [0xE9]) .nil)),
    ("record_type", .str job_event), ("schema_version", .int 2),
    ("target_kind", .str (asciiText "agent")), ("target_name", .str (asciiText "a")),
    ("timestamp", .str (asciiText "s")), ("type", .str (asciiText "t"))].foldr
      (fun field rest => .cons (asciiText field.1) field.2 rest) .nil

theorem canonical_replyFields : replyFields.Canonical :=
  ⟨by decide, trivial, by decide, trivial, by decide, trivial, by decide,
    ⟨by decide, trivial, trivial⟩, by decide, trivial, by decide, trivial, by decide, trivial,
    by decide, trivial, by decide, trivial, by decide, trivial, trivial⟩

def recordLine (line : WrittenLine json_loads) : WrittenLine load_record :=
  { raw := line.raw
    payload := line.payload.map (dict_of RecordField.of_value)
    text := line.text
    decodes := line.decodes
    unbroken := line.unbroken
    written := by
      intro row hrow
      obtain ⟨fields, hfields, rfl⟩ := Option.map_eq_some_iff.mp hrow
      obtain ⟨hstrip, hloads⟩ := line.written fields hfields
      refine ⟨hstrip, ?_⟩
      rw [load_record, hloads]
    blank := fun hnone => line.blank (Option.map_eq_none_iff.mp hnone) }

/-- The line of an event; its text has the fields in another order. -/
def replyLine : AppendedLine load_record :=
  { recordLine (dumpedLine (ascii "\x7b\"agent_name\": \"a\", \"event_id\": \"e\", " ++
        ascii "\"job_id\": \"j\", \"payload\": \x7b\"r\": \"" ++ [0xC3, 0xA9] ++
        ascii "\"\x7d, \"record_type\": \"job_event\", \"schema_version\": 2, " ++
        ascii "\"target_kind\": \"agent\", \"target_name\": \"a\", \"timestamp\": \"s\", " ++
        ascii "\"type\": \"t\"\x7d") replyFields
        canonical_replyFields (by decide +kernel) (by decide +kernel) (by decide +kernel)) with
    event := some replyEvent
    of_event := by
      intro e he
      cases he
      refine ⟨_, rfl, Dict.get_congr (by decide) ?_⟩
      simp only [JobEvent.to_record, List.forall_mem_cons]
      exact ⟨rfl, rfl, rfl, rfl, rfl, rfl, rfl, rfl, rfl, rfl, nofun⟩
    of_other := nofun }

/-- A line that is no event. -/
def otherLine (line : WrittenLine json_loads) (hother : line.payload.all fun fields =>
    !Record.has_type (dict_of RecordField.of_value fields) job_event) : AppendedLine load_record :=
  { recordLine line with
    event := none
    of_event := nofun
    of_other := by
      intro _ row hrow
      obtain ⟨fields, hfields, rfl⟩ := Option.map_eq_some_iff.mp hrow
      rw [hfields, Option.all_some, Bool.not_eq_true'] at hother
      exact hother }

/-- The file is not there at first, and an event comes before each of the later reads. -/
theorem event_reads_partition_replies :
    ∃ watch, (watchOf (none : Option (List (AppendedLine load_record)))).run
        ([.read, .append (otherLine unfinishedLines[0] (by decide)), .append replyLine, .read,
          .append (otherLine unfinishedLines[1] (by decide)), .append replyLine] ++ [.read]) =
        .ok watch ∧ watch.returned.flatten = [replyEvent, replyEvent] := by
  obtain ⟨_, watch, _, _, _, hrun, hevents, _⟩ := event_reads_partition
    (none : Option (List (AppendedLine load_record)))
    [.read, .append (otherLine unfinishedLines[0] (by decide)), .append replyLine, .read,
      .append (otherLine unfinishedLines[1] (by decide)), .append replyLine] []
  exact ⟨watch, hrun, hevents⟩

end ClaudeCodeBridge.Analysis.JobEvents
