import ClaudeCodeBridge.Program.JsonCuts
import ClaudeCodeBridge.Model.LayoutText

/-!
# Lines of journals

The journals of `lib/mobile_gateway`: `_append_jsonl` and `_read_jsonl` of `pairing.py`, and
`_write_jsonl` and `_read_jsonl` of `notifications.py`.  A file is its text, for `utf-8` decodes
what it has encoded; it does not encode a surrogate.  `read_text` makes a line feed of every line
end `\r` or `\r\n`, at which `splitlines` divides the text as well.
-/

set_option autoImplicit false

namespace ClaudeCodeBridge.Model.Journal

open Program
open Program.JsonCode (Value Fields dumps loads)
open Model.LayoutText (splitlines)
open Model.Relay (strip)

/-- A record that is written: a dict with the names of its fields. -/
structure Record where
  fields : Fields
  canonical : fields.Canonical
  named : fields.Named

/-- `UnicodeEncodeError`. -/
structure EncodeError where
  character : Fin 0x110000
  deriving DecidableEq

def isSurrogate (c : Fin 0x110000) : Bool := 0xD800 ≤ c.val && c.val < 0xE000

/-- `handle.write`. -/
def encoded (text : Text) : Except EncodeError Text :=
  match text.find? isSurrogate with
  | some character => .error { character := character }
  | none => .ok text

def line (record : Record) : Text := dumps (.obj record.fields) ++ [0x0A]

/-- The dict of a line. -/
def payload (text : Text) : Option Fields :=
  match loads text with
  | some (.obj fields) => some fields
  | _ => none

/-- `_append_jsonl`, to the text of a file. -/
def append_jsonl (content : Text) (record : Record) : Except EncodeError Text := do
  let text ← encoded (line record)
  return content ++ text

/-- The records of a list, appended one by one to a journal that is not there. -/
def append_all (records : List Record) : Except EncodeError Text := records.foldlM append_jsonl []

/-- `_read_jsonl` of the pairing store. -/
def read_jsonl (content : Text) : List Fields :=
  (splitlines content).filterMap fun line =>
    let text := strip line
    if text = [] then none else payload text

structure MobileNotificationEvent where
  id : Text
  kind : Text
  project_id : Text
  project_short_name : Text
  agent : Text
  completed_at : Text
  dedupe_key : Text
  namespace_epoch : Option ℤ
  scope : Option Text
  activity_state : Option Text
  deriving DecidableEq

/-- A field whose text is neither missing nor empty. -/
def optional_field (key : Text) (text : Option Text) (rest : Fields) : Fields :=
  match text with
  | some text => if text = [] then rest else .cons key (.str text) rest
  | none => rest

namespace MobileNotificationEvent

variable (event : MobileNotificationEvent)

def last_fields : Fields :=
  optional_field (asciiText "scope") event.scope
    (optional_field (asciiText "activity_state") event.activity_state .nil)

def fields : Fields :=
  .cons (asciiText "id") (.str event.id) <|
  .cons (asciiText "kind") (.str event.kind) <|
  .cons (asciiText "project_id") (.str event.project_id) <|
  .cons (asciiText "project_short_name") (.str event.project_short_name) <|
  .cons (asciiText "agent") (.str event.agent) <|
  .cons (asciiText "completed_at") (.str event.completed_at) <|
  .cons (asciiText "dedupe_key") (.str event.dedupe_key) <|
  match event.namespace_epoch with
  | some epoch => .cons (asciiText "namespace_epoch") (.int epoch) event.last_fields
  | none => event.last_fields

def payload_keys : List Text :=
  ["id", "kind", "project_id", "project_short_name", "agent", "completed_at", "dedupe_key",
    "namespace_epoch", "scope", "activity_state"].map asciiText

end MobileNotificationEvent

section

variable {key : Text} {text : Option Text} {rest : Fields}

theorem each_optional_field (h : rest.Each) : (optional_field key text rest).Each := by
  unfold optional_field
  split
  · split
    · exact h
    · exact ⟨trivial, h⟩
  · exact h

theorem keys_optional_field {other : Text} (h : other ∈ (optional_field key text rest).keys) :
    other = key ∨ other ∈ rest.keys := by
  unfold optional_field at h
  split at h
  · split at h
    · exact Or.inr h
    · exact List.mem_cons.mp h
  · exact Or.inr h

end

namespace MobileNotificationEvent

variable (event : MobileNotificationEvent)

theorem each_fields : event.fields.Each := by
  have hlast : event.last_fields.Each := each_optional_field (each_optional_field trivial)
  refine ⟨trivial, trivial, trivial, trivial, trivial, trivial, trivial, ?_⟩
  cases event.namespace_epoch with
  | none => exact hlast
  | some epoch => exact ⟨trivial, hlast⟩

theorem keys_fields {key : Text} (h : key ∈ event.fields.keys) : key ∈ payload_keys := by
  have hlast : key ∈ event.last_fields.keys → key ∈ payload_keys := by
    intro hkey
    obtain rfl | hkey := keys_optional_field hkey
    · simp [payload_keys]
    obtain rfl | hkey := keys_optional_field hkey
    · simp [payload_keys]
    · cases hkey
  unfold fields at h
  simp only [Fields.keys, List.mem_cons] at h
  obtain rfl | rfl | rfl | rfl | rfl | rfl | rfl | h := h
  iterate 7
    · simp [payload_keys]
  cases hepoch : event.namespace_epoch with
  | none =>
    rw [hepoch] at h
    exact hlast h
  | some epoch =>
    rw [hepoch] at h
    obtain rfl | h := List.mem_cons.mp h
    · simp [payload_keys]
    · exact hlast h

theorem named_payload_keys : ∀ key ∈ payload_keys, ∃ c ∈ key.head?, JsonCode.isCloser c = false := by
  intro key h
  simp only [payload_keys, List.map_cons, List.map_nil, List.mem_cons, List.not_mem_nil,
    or_false] at h
  obtain rfl | rfl | rfl | rfl | rfl | rfl | rfl | rfl | rfl | rfl := h <;> exact ⟨_, rfl, rfl⟩

def to_payload : Record where
  fields := event.fields.dict
  canonical := JsonCode.canonical_dict _ event.each_fields
  named := by
    refine ⟨?_, fun key hkey =>
      named_payload_keys key (event.keys_fields ((JsonCode.mem_keys_dict _).mp hkey))⟩
    have hid : asciiText "id" ∈ event.fields.dict.keys :=
      (JsonCode.mem_keys_dict _).mpr List.mem_cons_self
    exact List.ne_nil_of_mem hid

end MobileNotificationEvent

def write_jsonl (events : List MobileNotificationEvent) : Except EncodeError Text :=
  encoded (events.flatMap fun event => line event.to_payload)

/-- `_read_jsonl` of the notification store. -/
def read_notifications (content : Text) : List Fields := (splitlines content).filterMap payload

end ClaudeCodeBridge.Model.Journal
