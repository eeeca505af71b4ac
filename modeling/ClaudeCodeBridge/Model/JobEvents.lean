import ClaudeCodeBridge.Model.JsonlStore

/-!
# Files of job events

A target has a file of job events, one JSON object a line.  Whoever watches it reads on from a
line number: `read_since_target` returns the events after that many lines, and the number of lines
that there are now.  Rows of other types may stand in the file; they are counted, and left out.

A field of a record is a text, a number, an object or something else; fields of an event that are
no texts are not read.
-/

set_option autoImplicit false

namespace ClaudeCodeBridge.Model.JobEvents

open Program
open Model.Relay (strip)
open Model.JsonlStore

inductive AgentNameError where
  /-- `agent name cannot be empty`. -/
  | empty
  /-- `agent name must match ^[a-zA-Z][a-zA-Z0-9_-]\x7b0,31\x7d$`. -/
  | pattern
  /-- `agent name '<name>' is reserved`. -/
  | reserved (name : Text)
  deriving DecidableEq

def reserved_agent_names : List Text :=
  ["all", "from", "user", "system", "ask", "cancel", "clear", "pend", "ping", "watch", "kill",
    "ps", "logs", "doctor", "config", "cmd", "version", "update", "help"].map asciiText

def isUpper (c : Fin 0x110000) : Bool := 65 ≤ c.val && c.val ≤ 90

def isLetter (c : Fin 0x110000) : Bool := isUpper c || (97 ≤ c.val && c.val ≤ 122)

def isNameChar (c : Fin 0x110000) : Bool :=
  isLetter c || (48 ≤ c.val && c.val ≤ 57) || c.val = 95 || c.val = 45

/-- `AGENT_NAME_PATTERN.fullmatch`. -/
def isAgentName : Text → Bool
  | [] => false
  | c :: rest => isLetter c && rest.length ≤ 31 && rest.all isNameChar

/-- `str.lower`, of a letter in ASCII. -/
def lowerChar (c : Fin 0x110000) : Fin 0x110000 :=
  if isUpper c then Fin.ofNat 0x110000 (c.val + 32) else c

def normalize_agent_name (name : Text) : Except AgentNameError Text :=
  let value := strip name
  if value = [] then .error .empty
  else if !isAgentName value then .error .pattern
  else
    let normalized := value.map lowerChar
    if normalized ∈ reserved_agent_names then .error (.reserved normalized) else .ok normalized

theorem isNameChar_lowerChar {c : Fin 0x110000} (h : isNameChar c = true) :
    isNameChar (lowerChar c) = true ∧ lowerChar (lowerChar c) = lowerChar c ∧
      Relay.isSpace (lowerChar c) = false := by
  unfold isNameChar isLetter isUpper at h
  simp only [Bool.or_eq_true, Bool.and_eq_true, decide_eq_true_iff] at h
  unfold lowerChar
  by_cases hupper : isUpper c = true
  · rw [if_pos hupper]
    unfold isUpper at hupper
    simp only [Bool.and_eq_true, decide_eq_true_iff] at hupper
    have hval : (Fin.ofNat 0x110000 (c.val + 32)).val = c.val + 32 := Nat.mod_eq_of_lt (by omega)
    generalize Fin.ofNat 0x110000 (c.val + 32) = d at hval ⊢
    unfold isNameChar isLetter isUpper Relay.isSpace
    simp only [hval, Bool.or_eq_true, Bool.and_eq_true, decide_eq_true_iff, Fin.ext_iff,
      Bool.or_eq_false_iff, Bool.and_eq_false_iff, decide_eq_false_iff_not]
    refine ⟨by omega, ?_, by omega⟩
    rw [if_neg (by omega)]
    exact hval
  · rw [if_neg hupper, if_neg hupper]
    unfold isUpper at hupper
    simp only [Bool.and_eq_true, decide_eq_true_iff] at hupper
    unfold isNameChar isLetter isUpper Relay.isSpace
    simp only [Bool.or_eq_true, Bool.and_eq_true, decide_eq_true_iff, Bool.or_eq_false_iff,
      Bool.and_eq_false_iff, decide_eq_false_iff_not]
    exact ⟨h, trivial, by omega⟩

theorem all_name_chars {name : Text} (h : isAgentName name = true) :
    ∀ c ∈ name, isNameChar c = true := by
  cases name with
  | nil => cases h
  | cons c rest =>
    unfold isAgentName at h
    simp only [Bool.and_eq_true, List.all_eq_true] at h
    intro d hd
    obtain rfl | hrest := List.mem_cons.mp hd
    · unfold isNameChar
      rw [h.1.1]
      rfl
    · exact h.2 d hrest

theorem isAgentName_lower {name : Text} (h : isAgentName name = true) :
    isAgentName (name.map lowerChar) = true := by
  have hchars := all_name_chars h
  cases name with
  | nil => cases h
  | cons c rest =>
    have hletter : isLetter (lowerChar c) = true := by
      unfold isAgentName at h
      simp only [Bool.and_eq_true] at h
      have hc := h.1.1
      unfold isLetter isUpper at hc
      simp only [Bool.or_eq_true, Bool.and_eq_true, decide_eq_true_iff] at hc
      unfold lowerChar
      split
      · rename_i hupper
        unfold isUpper at hupper
        simp only [Bool.and_eq_true, decide_eq_true_iff] at hupper
        have hval : (Fin.ofNat 0x110000 (c.val + 32)).val = c.val + 32 :=
          Nat.mod_eq_of_lt (by omega)
        unfold isLetter isUpper
        simp only [hval, Bool.or_eq_true, Bool.and_eq_true, decide_eq_true_iff]
        omega
      · exact h.1.1
    unfold isAgentName at h
    simp only [Bool.and_eq_true, decide_eq_true_iff] at h
    rw [List.map_cons, isAgentName]
    simp only [Bool.and_eq_true, decide_eq_true_iff, List.length_map, List.all_eq_true,
      List.mem_map]
    refine ⟨⟨hletter, h.1.2⟩, ?_⟩
    rintro _ ⟨d, hd, rfl⟩
    exact (isNameChar_lowerChar (hchars d (List.mem_cons_of_mem c hd))).1

/-- A normalised name is not changed again. -/
theorem normalize_agent_name_self {name normalized : Text}
    (h : normalize_agent_name name = .ok normalized) :
    normalize_agent_name normalized = .ok normalized := by
  unfold normalize_agent_name at h
  simp only at h
  split at h
  · cases h
  · rename_i hempty
    split at h
    · cases h
    · rename_i hname
      rw [Bool.not_eq_true, Bool.not_eq_false'] at hname
      split at h
      · cases h
      · rename_i hreserved
        cases h
        have hchars := all_name_chars hname
        have hstrip : strip ((strip name).map lowerChar) = (strip name).map lowerChar := by
          apply Relay.strip_eq_self
          intro c hc
          obtain ⟨d, hd, rfl⟩ := List.mem_map.mp hc
          exact (isNameChar_lowerChar (hchars d hd)).2.2
        have hlower : ((strip name).map lowerChar).map lowerChar = (strip name).map lowerChar := by
          rw [List.map_map]
          apply List.map_congr_left
          intro d hd
          exact (isNameChar_lowerChar (hchars d hd)).2.1
        unfold normalize_agent_name
        simp only [hstrip, hlower, List.map_eq_nil_iff, hempty, if_false,
          isAgentName_lower hname, Bool.not_true, Bool.false_eq_true, hreserved]

variable {α : Type}

/-- A field of a record; `α` is what the code does not look into. -/
inductive RecordField (α : Type) where
  | text (value : Text)
  | number (value : ℤ)
  | members (items : Dict Text α)
  | other (value : α)

abbrev Record (α : Type) := Dict Text (RecordField α)

inductive TargetKind where
  | agent
  deriving DecidableEq

def TargetKind.value : TargetKind → Text
  | agent => asciiText "agent"

inductive EventError where
  /-- `<field> cannot be empty`. -/
  | empty (field : String)
  /-- `KeyError`. -/
  | missing (field : String)
  | not_text (field : String)
  /-- `schema_version must be 2`. -/
  | schema_version
  /-- `record_type must be 'job_event'`. -/
  | record_type
  | payload
  | target_kind
  | agent_name (error : AgentNameError)
  deriving DecidableEq

/-- A `JobEvent`, after its `__post_init__`. -/
structure JobEvent (α : Type) where
  event_id : Text
  job_id : Text
  agent_name : Text
  type : Text
  payload : Dict Text α
  timestamp : Text
  target_kind : TargetKind
  target_name : Text
  event_id_ne_nil : event_id ≠ []
  job_id_ne_nil : job_id ≠ []
  type_ne_nil : type ≠ []
  same_name : agent_name = target_name
  normalized : normalize_agent_name target_name = .ok target_name

def job_event : Text := asciiText "job_event"

def JobEvent.to_record (event : JobEvent α) : Record α where
  items :=
    [(asciiText "schema_version", .number 2),
      (asciiText "record_type", .text job_event),
      (asciiText "event_id", .text event.event_id),
      (asciiText "job_id", .text event.job_id),
      (asciiText "agent_name", .text event.agent_name),
      (asciiText "target_kind", .text event.target_kind.value),
      (asciiText "target_name", .text event.target_name),
      (asciiText "type", .text event.type),
      (asciiText "payload", .members event.payload),
      (asciiText "timestamp", .text event.timestamp)]
  nodup_keys := by
    simp only [List.map_cons, List.map_nil]
    decide

variable (record : Record α)

/-- `record[field]`. -/
def Record.required (field : String) : Except EventError Text :=
  match record.get (asciiText field) with
  | none => .error (.missing field)
  | some (.text value) => .ok value
  | some _ => .error (.not_text field)

/-- `record.get(field, default)`. -/
def Record.optional (field : String) (default : Text) : Except EventError Text :=
  match record.get (asciiText field) with
  | none => .ok default
  | some (.text value) => .ok value
  | some _ => .error (.not_text field)

/-- `dict(record.get('payload', {}))`. -/
def Record.payload : Except EventError (Dict Text α) :=
  match record.get (asciiText "payload") with
  | none => .ok .empty
  | some (.members items) => .ok items
  | some _ => .error .payload

/-- `record.get('record_type') == expected_type`. -/
def Record.has_type (expected_type : Text) : Bool :=
  match record.get (asciiText "record_type") with
  | some (.text value) => value = expected_type
  | _ => false

/-- `_validate_record`. -/
def Record.validate (expected_type : Text) : Except EventError Unit :=
  match record.get (asciiText "schema_version") with
  | some (.number version) =>
    if version = 2 then
      if record.has_type expected_type then .ok () else .error .record_type
    else .error .schema_version
  | _ => .error .schema_version

/-- `TargetKind(value)`. -/
def TargetKind.of_value (value : Text) : Except EventError TargetKind :=
  if value = TargetKind.agent.value then .ok .agent else .error .target_kind

def JobEvent.post_init (event_id job_id agent_name type : Text) (payload : Dict Text α)
    (timestamp target_kind target_name : Text) : Except EventError (JobEvent α) :=
  if hevent : event_id = [] then .error (.empty "event_id")
  else if hjob : job_id = [] then .error (.empty "job_id")
  else if htype : type = [] then .error (.empty "type")
  else
    match TargetKind.of_value target_kind with
    | .error error => .error error
    | .ok kind =>
      match hname : normalize_agent_name (if target_name = [] then agent_name else target_name) with
      | .error error => .error (.agent_name error)
      | .ok normalized =>
        .ok
          { event_id := event_id
            job_id := job_id
            agent_name := normalized
            type := type
            payload := payload
            timestamp := timestamp
            target_kind := kind
            target_name := normalized
            event_id_ne_nil := hevent
            job_id_ne_nil := hjob
            type_ne_nil := htype
            same_name := rfl
            normalized := normalize_agent_name_self hname }

def job_event_from_record : Except EventError (JobEvent α) := do
  record.validate job_event
  let event_id ← record.required "event_id"
  let job_id ← record.required "job_id"
  let agent_name ← record.optional "agent_name" []
  let target_kind ← record.optional "target_kind" TargetKind.agent.value
  let target_name ← record.optional "target_name" agent_name
  let type ← record.required "type"
  let payload ← record.payload
  let timestamp ← record.required "timestamp"
  JobEvent.post_init event_id job_id agent_name type payload timestamp target_kind target_name

/-- The file of a target's events is not read. -/
inductive EventsUnread where
  | unread (error : SinceError)
  | refused (error : EventError)
  deriving DecidableEq

def events_of_rows : List (Record α) → Except EventError (List (JobEvent α))
  | [] => .ok []
  | row :: rows =>
    if !row.has_type job_event then events_of_rows rows
    else do
      let event ← job_event_from_record row
      let events ← events_of_rows rows
      return event :: events

/-- `read_since_target`, of a file that may not be there. -/
def read_since_target (loads : Text → Loads (Record α)) (content : Option Bytes)
    (start_line : ℤ) : Except EventsUnread (ℤ × List (JobEvent α)) := do
  let rows : Rows (Record α) (Record α) := { loads := loads, loader := some }
  let (line_no, rows) ← (rows.read_since content start_line).mapError .unread
  let events ← (events_of_rows rows).mapError .refused
  return (line_no, events)

/-- A line that is appended to the file: the record of an event, whatever the order of its
fields, a row of another type, or a blank line. -/
structure AppendedLine (loads : Text → Loads (Record α)) extends WrittenLine loads where
  event : Option (JobEvent α)
  of_event : ∀ e, event = some e →
    ∃ row, payload = some row ∧ ∀ key, row.get key = e.to_record.get key
  of_other : event = none → ∀ row, payload = some row → row.has_type job_event = false

inductive Step (loads : Text → Loads (Record α)) where
  | append (line : AppendedLine loads)
  /-- `read_since` from the line number that the last one returned. -/
  | read

/-- The file, the line number that is passed on, and what the reads have returned. -/
structure Watch (α : Type) where
  content : Option Bytes
  cursor : ℤ
  returned : List (List (JobEvent α))

variable {loads : Text → Loads (Record α)}

def Watch.step (watch : Watch α) : Step loads → Except EventsUnread (Watch α)
  | .append line =>
    .ok { watch with content := some (watch.content.getD [] ++ (line.raw ++ [0x0A])) }
  | .read => do
    let (cursor, events) ← read_since_target loads watch.content watch.cursor
    return { watch with cursor := cursor, returned := watch.returned ++ [events] }

def Watch.run (watch : Watch α) : List (Step loads) → Except EventsUnread (Watch α)
  | [] => .ok watch
  | step :: steps => do
    let next ← watch.step step
    next.run steps

open JsonCode (Value Fields)

/-- The dict of some fields. -/
def dict_of {β : Type} (field : Value → β) : Fields → Dict Text β
  | .nil => .empty
  | .cons key value rest => (dict_of field rest).set key (field value)

def RecordField.of_value : Value → RecordField Value
  | .str value => .text value
  | .int value => .number value
  | .obj fields => .members (dict_of id fields)
  | value => .other value

/-- `json.loads`, with an object as a record. -/
def load_record (text : Text) : Loads (Record Value) :=
  match json_loads text with
  | .object fields => .object (dict_of RecordField.of_value fields)
  | .other => .other
  | .invalid => .invalid
  | .too_deep => .too_deep

end ClaudeCodeBridge.Model.JobEvents
