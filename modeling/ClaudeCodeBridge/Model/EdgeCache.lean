import Mathlib.Algebra.GroupWithZero.Nat
import ClaudeCodeBridge.Model.DispatcherStore

/-!
# The cache of callback edges

A `CallbackEdgeStore` appends records of edges to a file and keeps the last record of each edge
beside a signature of the file: its size and time of change, as device and inode stay the same.
Another process may append to the file between any two of the store's steps.  A call takes a stat
of the file first; calls exclude each other by the lock of the store.
-/

set_option autoImplicit false

namespace ClaudeCodeBridge.Model.EdgeCache

open Program

/-- A complete line: the record, how long it is, and when it was written. -/
structure Line where
  record : CallbackEdgeRecord
  size : ℕ
  mtime_ns : ℕ
  size_pos : 0 < size

/-- The file as it grew; it is not there before its first line. -/
abbrev EdgeFile := List Line

def EdgeFile.records (file : EdgeFile) : List CallbackEdgeRecord := file.map Line.record

structure Signature where
  st_size : ℕ
  st_mtime_ns : ℕ
  deriving DecidableEq

def path_signature (file : EdgeFile) : Option Signature :=
  file.getLast?.map fun last =>
    { st_size := (file.map Line.size).sum, st_mtime_ns := last.mtime_ns }

/-- The last record of each edge, by the edge's first. -/
def latest_records (records : List CallbackEdgeRecord) : List CallbackEdgeRecord :=
  collapse CallbackEdgeRecord.edge_id records

/-- The calls that read. -/
inductive Query where
  | list_latest
  | get_latest (edge_id : EdgeId)
  deriving DecidableEq

inductive Answer where
  | listed (records : List CallbackEdgeRecord)
  | got (edge_id : EdgeId) (record : Option CallbackEdgeRecord)
  deriving DecidableEq

def Query.answer (latest : List CallbackEdgeRecord) : Query → Answer
  | list_latest => .listed latest
  | get_latest edge_id => .got edge_id (latest.find? fun record => record.edge_id = edge_id)

/-- A call that reads and has returned: how many lines the file had at its start and at its end. -/
structure Call where
  answer : Answer
  started : ℕ
  ended : ℕ
  deriving DecidableEq

/-- Where the store is in a call. -/
inductive Pending where
  | idle
  /-- `append` has taken `signature_before`. -/
  | appending (record : CallbackEdgeRecord) (signature_before : Option Signature)
  /-- `append` has written. -/
  | appended (record : CallbackEdgeRecord) (signature_before : Option Signature)
  | cached (query : Query) (started : ℕ)
  /-- The signature is another, or there is no cache. -/
  | loading (query : Query) (started : ℕ)
  /-- The file has been read. -/
  | loaded (query : Query) (started : ℕ)
  deriving DecidableEq

structure State where
  file : EdgeFile
  latest_by_id : Option (List CallbackEdgeRecord)
  cache_signature : Option Signature
  pending : Pending
  /-- The calls that have returned, in their order. -/
  calls : List Call

/-- A new store, over a file that may be there. -/
def State.initial (file : EdgeFile) : State :=
  { file := file, latest_by_id := none, cache_signature := none, pending := .idle, calls := [] }

/-- The cache is there and has this signature. -/
def State.current (s : State) (signature : Option Signature) : Bool :=
  s.latest_by_id.isSome && signature = s.cache_signature

/-- `append`: its first stat. -/
def State.begin_append (s : State) (record : CallbackEdgeRecord) : State :=
  { s with pending := .appending record (path_signature s.file) }

def State.write (s : State) (line : Line) (signature_before : Option Signature) : State :=
  { s with
    file := s.file ++ [line]
    pending := .appended line.record signature_before }

/-- `append` after its write: keep the cache with the record, or drop it. -/
def State.end_append (s : State) (record : CallbackEdgeRecord)
    (signature_before : Option Signature) : State :=
  if s.current signature_before then
    { s with
      latest_by_id := s.latest_by_id.map (upsert CallbackEdgeRecord.edge_id record)
      cache_signature := path_signature s.file
      pending := .idle }
  else { s with latest_by_id := none, cache_signature := none, pending := .idle }

/-- `_latest_records_locked`: its first stat. -/
def State.begin_read (s : State) (query : Query) : State :=
  { s with
    pending := if s.current (path_signature s.file) then .cached query s.file.length
      else .loading query s.file.length }

def State.load (s : State) (query : Query) (started : ℕ) : State :=
  { s with
    latest_by_id := some (latest_records s.file.records)
    pending := .loaded query started }

def State.restat (s : State) (query : Query) (started : ℕ) : State :=
  { s with
    cache_signature := path_signature s.file
    pending := .cached query started }

def State.return_latest (s : State) (query : Query) (started : ℕ) : State :=
  { s with
    pending := .idle
    calls := s.calls ++ [{ answer := query.answer (s.latest_by_id.getD [])
                           started := started, ended := s.file.length }] }

/-- A step of the store. -/
inductive Own : State → State → Prop where
  | begin_append (s : State) (record : CallbackEdgeRecord) (h : s.pending = .idle) :
    Own s (s.begin_append record)
  | write (s : State) (line : Line) (signature_before : Option Signature)
    (h : s.pending = .appending line.record signature_before) :
    Own s (s.write line signature_before)
  | end_append (s : State) (record : CallbackEdgeRecord) (signature_before : Option Signature)
    (h : s.pending = .appended record signature_before) :
    Own s (s.end_append record signature_before)
  | begin_read (s : State) (query : Query) (h : s.pending = .idle) : Own s (s.begin_read query)
  | load (s : State) (query : Query) (started : ℕ) (h : s.pending = .loading query started) :
    Own s (s.load query started)
  | restat (s : State) (query : Query) (started : ℕ) (h : s.pending = .loaded query started) :
    Own s (s.restat query started)
  | return_latest (s : State) (query : Query) (started : ℕ)
    (h : s.pending = .cached query started) : Own s (s.return_latest query started)

/-- Another process appends a line. -/
def State.foreign (s : State) (line : Line) : State := { s with file := s.file ++ [line] }

inductive Step : State → State → Prop where
  | own (s t : State) (h : Own s t) : Step s t
  | foreign (s : State) (line : Line) : Step s (s.foreign line)

end ClaudeCodeBridge.Model.EdgeCache
