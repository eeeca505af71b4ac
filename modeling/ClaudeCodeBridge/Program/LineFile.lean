import ClaudeCodeBridge.Program.KeyedLog

/-!
# Files of lines

A file of records, one a line, to which lines are appended by a process that may stop in the
middle of an append: what was written then has no newline, and the next line is appended to
it.  Of a line that is made of more than one text nothing can be read.

A reader that keeps its offset reads the lines that were added (`linesFrom_bytes`).
-/

set_option autoImplicit false

namespace ClaudeCodeBridge.Program

variable {ρ : Type}

inductive LineText (ρ : Type) where
  | record (r : ρ)
  /-- It is no record. -/
  | other
  /-- It is cut within a character. -/
  | undecodable
  deriving DecidableEq

structure Line (ρ : Type) where
  text : LineText ρ
  /-- In bytes, without the newline. -/
  length : ℕ
  deriving DecidableEq

/-- What a stop leaves of a line. -/
inductive Torn where
  | nothing
  | part (length : ℕ) (decodable : Bool)
  /-- Everything but the newline. -/
  | text
  deriving DecidableEq

namespace Line

def size (line : Line ρ) : ℕ := line.length + 1

def record? (line : Line ρ) : Option ρ :=
  match line.text with
  | .record r => some r
  | _ => none

def decodable (line : Line ρ) : Bool :=
  match line.text with
  | .undecodable => false
  | _ => true

/-- Two texts on one line. -/
def joined (line next : Line ρ) : Line ρ :=
  { text := if line.decodable && next.decodable then .other else .undecodable
    length := line.length + next.length }

/-- What is left of a line. -/
def left (line : Line ρ) : Torn → Option (Line ρ)
  | .nothing => none
  | .part length decodable =>
    some { text := if decodable then .other else .undecodable, length := length }
  | .text => some line

theorem record?_joined (line next : Line ρ) : (line.joined next).record? = none := by
  unfold joined record?
  split
  · rename_i heq
    dsimp only at heq
    split at heq
    · cases heq
    · cases heq
  · rfl

theorem record?_left {line rest : Line ρ} {torn : Torn} {r : ρ} (hleft : line.left torn = some rest)
    (hrecord : rest.record? = some r) : line.record? = some r := by
  cases torn with
  | nothing => cases hleft
  | text =>
    have hsame : line = rest := Option.some.inj hleft
    rw [hsame]
    exact hrecord
  | part length decodable =>
    have hpart := Option.some.inj hleft
    rw [← hpart] at hrecord
    cases decodable with
    | true => cases hrecord
    | false => cases hrecord

end Line

/-- The size of complete lines. -/
def bytes : List (Line ρ) → ℕ
  | [] => 0
  | line :: lines => line.size + bytes lines

/-- The lines from an offset on. -/
def linesFrom : ℕ → List (Line ρ) → List (Line ρ)
  | _, [] => []
  | offset, line :: lines =>
    if offset = 0 then line :: lines
    else if line.size ≤ offset then linesFrom (offset - line.size) lines
    else { text := .other, length := line.length - offset } :: lines

theorem linesFrom_zero (lines : List (Line ρ)) : linesFrom 0 lines = lines := by
  cases lines with
  | nil => rfl
  | cons line lines => exact if_pos rfl

theorem linesFrom_bytes (before after : List (Line ρ)) :
    linesFrom (bytes before) (before ++ after) = after := by
  induction before with
  | nil => exact linesFrom_zero after
  | cons line before ih =>
    have hbytes : bytes (line :: before) = line.size + bytes before := rfl
    have hpos : line.size ≠ 0 := Nat.succ_ne_zero _
    rw [hbytes, List.cons_append, linesFrom, if_neg (by omega), if_pos (Nat.le_add_right _ _),
      Nat.add_sub_cancel_left]
    exact ih

theorem bytes_append (before after : List (Line ρ)) :
    bytes (before ++ after) = bytes before + bytes after := by
  induction before with
  | nil => exact (Nat.zero_add _).symm
  | cons line before ih =>
    rw [List.cons_append, bytes, bytes, ih, Nat.add_assoc]

structure LineFile (ρ : Type) where
  lines : List (Line ρ)
  /-- What stands after the last newline. -/
  rest : Option (Line ρ)
  deriving DecidableEq

namespace LineFile

variable {file : LineFile ρ} {line : Line ρ}

def empty : LineFile ρ := { lines := [], rest := none }

def append (file : LineFile ρ) (line : Line ρ) : LineFile ρ :=
  match file.rest with
  | none => { lines := file.lines ++ [line], rest := none }
  | some rest => { lines := file.lines ++ [rest.joined line], rest := none }

/-- An append in the middle of which the process stops. -/
def tear (file : LineFile ρ) (line : Line ρ) (torn : Torn) : LineFile ρ :=
  match line.left torn, file.rest with
  | none, _ => file
  | some left, none => { file with rest := some left }
  | some left, some rest => { file with rest := some (rest.joined left) }

/-- The records of the complete lines. -/
def records (file : LineFile ρ) : List ρ := file.lines.filterMap Line.record?

/-- The record that stands after the last newline. -/
def rest_record (file : LineFile ρ) : Option ρ := file.rest.bind Line.record?

def size (file : LineFile ρ) : ℕ :=
  bytes file.lines + (match file.rest with
    | none => 0
    | some rest => rest.length)

def decodable (file : LineFile ρ) : Bool :=
  file.lines.all Line.decodable && file.rest.all Line.decodable

theorem rest_append : (file.append line).rest = none := by
  unfold append
  split
  · rfl
  · rfl

theorem records_append (hrest : file.rest = none) :
    (file.append line).records = file.records ++ line.record?.toList := by
  unfold append
  rw [hrest]
  dsimp only [records]
  rw [List.filterMap_append]
  cases hrecord : line.record? with
  | none => rw [List.filterMap_cons_none hrecord, List.filterMap_nil, Option.toList_none]
  | some r => rw [List.filterMap_cons_some hrecord, List.filterMap_nil, Option.toList_some]

theorem lines_tear (torn : Torn) : (file.tear line torn).lines = file.lines := by
  unfold tear
  split
  · rfl
  · rfl
  · rfl

theorem records_tear (torn : Torn) : (file.tear line torn).records = file.records := by
  unfold records
  rw [lines_tear]

theorem rest_record_tear {torn : Torn} {r : ρ} (h : (file.tear line torn).rest_record = some r) :
    file.rest_record = some r ∨ file.rest = none ∧ line.record? = some r := by
  unfold tear at h
  split at h
  · exact Or.inl h
  · rename_i left hleft hrest
    exact Or.inr ⟨hrest, Line.record?_left hleft h⟩
  · rename_i left rest _ _
    have hnone : (rest.joined left).record? = some r := h
    rw [Line.record?_joined] at hnone
    cases hnone

end LineFile

end ClaudeCodeBridge.Program
