import ClaudeCodeBridge.Program.Utf8
import ClaudeCodeBridge.Program.JsonValues
import ClaudeCodeBridge.Model.RelayCrypto

/-!
# Files of JSON lines

A store appends rows to a file, one JSON object a line.  The whole file is read forwards, as a
text; its last rows, and the last row with some property, are read backwards: in chunks of bytes,
with the first line of what has been read carried over while its beginning is missing.

A file that is not there reads as an empty one.  What `json.loads` makes of a text, and what a
loader makes of an object, are parameters; `json_loads` is the one of the standard library, as far
as it has the depth.
-/

set_option autoImplicit false

namespace ClaudeCodeBridge.Model.JsonlStore

open Program
open Model.Relay (strip)

/-- What `json.loads` makes of a text. -/
inductive Loads (ρ : Type) where
  | object (payload : ρ)
  /-- A value that is no object. -/
  | other
  /-- `ValueError`. -/
  | invalid
  /-- `RecursionError`. -/
  | too_deep

/-- Why a line is not read. -/
inductive ReadError where
  | undecodable
  | invalid
  | not_object
  /-- The loader raises `ValueError` or `TypeError`. -/
  | rejected
  | too_deep
  deriving DecidableEq

/-- How the rows of a file are read. -/
structure Rows (ρ τ : Type) where
  loads : Text → Loads ρ
  loader : ρ → Option τ

variable {ρ τ : Type}

def Rows.plain (rows : Rows ρ τ) : Rows ρ ρ := { loads := rows.loads, loader := some }

variable (rows : Rows ρ τ)

/-- `loader(payload)`. -/
def Rows.load (payload : ρ) : Except ReadError τ :=
  match rows.loader payload with
  | some row => .ok row
  | none => .error .rejected

def Rows.payload (text : Text) : Except ReadError ρ :=
  match rows.loads text with
  | .object payload => .ok payload
  | .other => .error .not_object
  | .invalid => .error .invalid
  | .too_deep => .error .too_deep

/-- The row of a line, unless it is blank. -/
def Rows.read_text (line : Text) : Except ReadError (Option τ) :=
  if strip line = [] then .ok none
  else do
    let payload ← rows.payload (strip line)
    let row ← rows.load payload
    return some row

def Rows.read_line (raw : Bytes) : Except ReadError (Option τ) :=
  match utf8Decode raw with
  | none => .error .undecodable
  | some line => rows.read_text line

def Rows.read_lines : List Text → Except ReadError (List τ)
  | [] => .ok []
  | line :: lines => do
    let row ← rows.read_text line
    let rest ← Rows.read_lines lines
    return row.toList ++ rest

def Rows.read_all (content : Bytes) : Except ReadError (List τ) :=
  match utf8Decode content with
  | none => .error .undecodable
  | some text => rows.read_lines (splitLines 0x0A 0x0D text)

/-- Why `read_since` returns nothing. -/
inductive SinceError where
  /-- `start_line cannot be negative`. -/
  | negative_start_line
  | unread (error : ReadError)
  deriving DecidableEq

/-- The loop of `read_since`: how many lines have not been blank, and the rows of those after the
first `start_line`. -/
def Rows.since_lines (start_line : ℤ) : ℤ → List Text → Except ReadError (ℤ × List τ)
  | current, [] => .ok (current, [])
  | current, line :: lines =>
    if strip line = [] then Rows.since_lines start_line current lines
    else if current + 1 ≤ start_line then Rows.since_lines start_line (current + 1) lines
    else do
      let payload ← rows.payload (strip line)
      let row ← rows.load payload
      let rest ← Rows.since_lines start_line (current + 1) lines
      return (rest.1, row :: rest.2)

/-- `read_since`, of a file that may not be there. -/
def Rows.read_since (content : Option Bytes) (start_line : ℤ) : Except SinceError (ℤ × List τ) :=
  if start_line < 0 then .error .negative_start_line
  else
    match content with
    | none => .ok (start_line, [])
    | some content =>
      match utf8Decode content with
      | none => .error (.unread .undecodable)
      | some text => (rows.since_lines start_line 0 (splitLines 0x0A 0x0D text)).mapError .unread

def starts_with_break (buffer : Bytes) : Bool :=
  (buffer.head?.map (isBreak 0x0A 0x0D)).getD false

/-- The chunk before a position: the position where it begins, what is carried over from there,
and the lines that are complete. -/
def next_chunk (content : Bytes) (size position : ℕ) (buffer : Bytes) : ℕ × Bytes × List Bytes :=
  let read_size := min size position
  let position := position - read_size
  let chunk := (content.drop position).take read_size
  let buffer := chunk ++ buffer
  let lines := splitLines 0x0A 0x0D buffer
  if 0 < position && buffer ≠ [] && !starts_with_break buffer then
    (position, lines.head?.getD buffer, lines.tail)
  else (position, [], lines)

/-- The exceptions that `ignore_invalid` catches: the line has been decoded before. -/
def ReadError.caught : ReadError → Bool
  | .undecodable => false
  | .invalid => true
  | .not_object => true
  | .rejected => true
  | .too_deep => false

/-- The row of a line for `read_tail`. -/
def Rows.tail_line (ignore_invalid : Bool) (raw : Bytes) : Except ReadError (Option τ) :=
  match rows.read_line raw with
  | .ok row => .ok row
  | .error error => if ignore_invalid && error.caught then .ok none else .error error

/-- Append the rows of lines, while there are not enough. -/
def Rows.tail_lines (limit : ℕ) (ignore_invalid : Bool) :
    List Bytes → List τ → Except ReadError (List τ)
  | [], found => .ok found
  | raw :: lines, found =>
    if limit ≤ found.length then .ok found
    else do
      let row ← rows.tail_line ignore_invalid raw
      Rows.tail_lines limit ignore_invalid lines (found ++ row.toList)

/-- The loop of `read_tail`.  Every turn moves the position to the front. -/
def Rows.read_tail_from (rows : Rows ρ τ) (content : Bytes) (size limit : ℕ)
    (ignore_invalid : Bool) : ℕ → ℕ → Bytes → List τ → Except ReadError (List τ)
  | 0, _, _, found => .ok found
  | turns + 1, position, buffer, found =>
    if 0 < position ∧ found.length < limit then do
      let next := next_chunk content size position buffer
      let found ← rows.tail_lines limit ignore_invalid next.2.2.reverse found
      rows.read_tail_from content size limit ignore_invalid turns next.1 next.2.1 found
    else .ok found

/-- `read_tail`, with the size of its chunks. -/
def Rows.read_tail (content : Bytes) (size limit : ℕ) (ignore_invalid : Bool) :
    Except ReadError (List τ) :=
  if limit = 0 then .ok []
  else do
    let found ←
      rows.read_tail_from content size limit ignore_invalid content.length content.length [] []
    return found.reverse

/-- A line for `find_last`: its row, if its object has the property. -/
def Rows.check_line (predicate : ρ → Bool) (raw : Bytes) : Except ReadError (Option τ) :=
  match utf8Decode raw with
  | none => .error .undecodable
  | some line =>
    if strip line = [] then .ok none
    else do
      let payload ← rows.payload (strip line)
      if predicate payload then
        let row ← rows.load payload
        return some row
      else return none

def Rows.check_lines (predicate : ρ → Bool) : List Bytes → Except ReadError (Option τ)
  | [] => .ok none
  | raw :: lines => do
    let row ← rows.check_line predicate raw
    if row.isSome then return row else Rows.check_lines predicate lines

/-- The loop of `find_last`, and what follows it. -/
def Rows.find_last_from (rows : Rows ρ τ) (content : Bytes) (size : ℕ) (predicate : ρ → Bool) :
    ℕ → ℕ → Bytes → Except ReadError (Option τ)
  | 0, _, buffer => if buffer = [] then .ok none else rows.check_line predicate buffer
  | turns + 1, position, buffer =>
    if 0 < position then do
      let next := next_chunk content size position buffer
      let row ← rows.check_lines predicate next.2.2.reverse
      if row.isSome then return row
      else rows.find_last_from content size predicate turns next.1 next.2.1
    else if buffer = [] then .ok none
    else rows.check_line predicate buffer

/-- `find_last`, with the size of its chunks. -/
def Rows.find_last (content : Bytes) (size : ℕ) (predicate : ρ → Bool) :
    Except ReadError (Option τ) :=
  rows.find_last_from content size predicate content.length content.length []

/-- A line of a file that has been written: `json.loads` reads it as an object, or it is blank. -/
structure WrittenLine (loads : Text → Loads ρ) where
  raw : Bytes
  payload : Option ρ
  text : Text
  decodes : utf8Decode raw = some text
  unbroken : Unbroken 0x0A 0x0D text
  written : ∀ row, payload = some row → strip text ≠ [] ∧ loads (strip text) = .object row
  blank : payload = none → strip text = []

/-- A file of lines; its last line may have no newline. -/
def written_file {loads : Text → Loads ρ} (ended : Bool) : List (WrittenLine loads) → Bytes
  | [] => []
  | [line] => if ended then line.raw ++ [0x0A] else line.raw
  | line :: lines => line.raw ++ 0x0A :: written_file ended lines

/-- `json.loads`, with an object as its fields. -/
def json_loads (text : Text) : Loads JsonCode.Fields :=
  match JsonCode.loads text with
  | some (.obj fields) => .object fields
  | some _ => .other
  | none => .invalid

end ClaudeCodeBridge.Model.JsonlStore
