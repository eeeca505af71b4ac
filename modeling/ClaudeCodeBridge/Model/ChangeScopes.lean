import ClaudeCodeBridge.Model.OrchestrationBundle
import Mathlib.Data.List.DropRight

/-!
# Scopes of changes

`lib/cli/services/loop_execution_scope.py`: the files that a node may change, as paths, as
directories, which end in `/`, and as patterns of `fnmatch`.  Paths are POSIX paths, and a class
in a pattern (`[seq]`) means what the documentation says.
-/

set_option autoImplicit false

namespace ClaudeCodeBridge.Model.Scopes

open Program
open Model.PlanTask (ValueError)
open Model.Relay (strip)
open Model.Workgroup (Scope)

abbrev slash : Fin 0x110000 := 0x2F
abbrev dot : Fin 0x110000 := 0x2E
abbrev bang : Fin 0x110000 := 0x21
abbrev backslash : Fin 0x110000 := 0x5C
abbrev closing : Fin 0x110000 := 0x5D

/-- The `parts` of a relative `Path(value)`. -/
def path_parts (value : Text) : List Text :=
  (value.splitOn slash).filter fun part => part ≠ [] ∧ part ≠ [dot]

/-- `safe_relative_path(value).as_posix()`: the names with a slash between them. -/
def safe_relative_path (value : Text) : Except ValueError Text := do
  let parts := path_parts value
  refuseIf (value.head? = some slash ∨ [dot, dot] ∈ parts) ⟨"unsafe workspace relative path"⟩
  pure (parts.dropLast.flatMap (· ++ [slash]) ++ parts.getLastD [dot])

/-- The stem and the suffix of a name: a dot at either end begins no suffix. -/
def split_name (name : Text) : Text × Text :=
  let after := name.rtakeWhile (· ≠ dot)
  let before := (name.rdropWhile (· ≠ dot)).dropLast
  if before ≠ [] ∧ after ≠ [] then (before, dot :: after) else (name, [])

/-- `Path(path).suffix`, of a path as `as_posix` gives it. -/
def suffix (path : Text) : Text := (split_name (path.rtakeWhile (· ≠ slash))).2

/-- `Path(path).with_suffix('').as_posix()`, of such a path with a suffix. -/
def without_suffix (path : Text) : Text :=
  path.rdropWhile (· ≠ slash) ++ (split_name (path.rtakeWhile (· ≠ slash))).1

/-- `text.rstrip('/')`. -/
def rstrip_slash (text : Text) : Text := text.rdropWhile (· = slash)

def normalize_scope_paths (values : List Text) : Except ValueError (List Scope) := do
  let normalized ← values.mapM fun value => do
    let text := strip value
    refuseIf (text = []) ⟨"must be a non-empty path"⟩
    let relative ← safe_relative_path text
    refuseIf (relative = [dot]) ⟨"must not be the project root"⟩
    let first := relative.takeWhile (· ≠ slash)
    refuseIf (first = asciiText ".ccb" ∨ first = asciiText ".git") ⟨"cannot target authority"⟩
    if text.getLast? = some slash ∨ text.getLast? = some backslash then
      pure (rstrip_slash relative ++ [slash])
    else pure relative
  pure normalized.eraseDups

inductive GlobToken where
  | many
  | single
  | literal (c : Fin 0x110000)
  | oneOf (negated : Bool) (members : Text)
  deriving DecidableEq

/-- The members of a class whose `[` stands before the text, and what follows its `]`: a `]`
that comes first does not close it. -/
def glob_class (text : Text) : Option (Text × Text) :=
  let first := text.take (if text.head? = some closing then 1 else 0)
  let rest := text.drop first.length
  if rest.contains closing then
    some (first ++ rest.takeWhile (· ≠ closing), (rest.dropWhile (· ≠ closing)).drop 1)
  else none

/-- `fnmatch.translate`.  Each token takes a character of the text at least. -/
def glob_tokens : ℕ → Text → List GlobToken
  | 0, _ => []
  | _, [] => []
  | fuel + 1, c :: rest =>
    if c = 0x2A then .many :: glob_tokens fuel rest
    else if c = 0x3F then .single :: glob_tokens fuel rest
    else if c = 0x5B then
      let negated := rest.head? = some bang
      match glob_class (if negated then rest.drop 1 else rest) with
      | some (members, after) => .oneOf negated members :: glob_tokens fuel after
      | none => .literal c :: glob_tokens fuel rest
    else .literal c :: glob_tokens fuel rest

def is_member (c : Fin 0x110000) : Text → Bool
  | first :: 0x2D :: last :: rest => (first ≤ c && c ≤ last) || is_member c rest
  | first :: rest => c = first || is_member c rest
  | [] => false

def match_tokens : List GlobToken → Text → Bool
  | [], name => name.isEmpty
  | .many :: tokens, name => name.tails.any fun rest => match_tokens tokens rest
  | .single :: tokens, name => !name.isEmpty && match_tokens tokens name.tail
  | .literal c :: tokens, name => name.head? = some c && match_tokens tokens name.tail
  | .oneOf negated members :: tokens, name =>
    name.head?.any (fun c => negated ^^ is_member c members) && match_tokens tokens name.tail

def fnmatchcase (name pattern : Text) : Bool :=
  match_tokens (glob_tokens pattern.length pattern) name

def is_marker (c : Fin 0x110000) : Bool := c = 0x2A || c = 0x3F || c = 0x5B

def scope_has_glob (scope : Text) : Bool := scope.any is_marker

/-- `_scope_static_prefix`. -/
def scope_static_prefix (scope : Text) : Text := scope.takeWhile fun c => !is_marker c

/-- The body of the loop of `path_allowed_by_scope`. -/
def allowed_by (changed : Text) (allowed : Scope) : Except ValueError Bool := do
  let scope ← safe_relative_path allowed
  pure (changed = scope || scope_has_glob scope && fnmatchcase changed scope ||
    (suffix changed ≠ [] && suffix scope = [] && without_suffix changed = scope) ||
    (allowed.getLast? = some slash && (rstrip_slash scope ++ [slash]).isPrefixOf changed))

def path_allowed_by_scope (changed_file : Text) (allowed_change_paths : List Scope) :
    Except ValueError Bool := do
  let changed ← safe_relative_path changed_file
  allowed_change_paths.anyM (allowed_by changed)

def scopes_overlap (left right : Scope) : Except ValueError Bool := do
  let left_path ← safe_relative_path left
  let right_path ← safe_relative_path right
  let left_static := scope_static_prefix left_path
  let right_static := scope_static_prefix right_path
  pure (left_path = right_path ||
    left.getLast? = some slash && (rstrip_slash left_path ++ [slash]).isPrefixOf right_path ||
    right.getLast? = some slash && (rstrip_slash right_path ++ [slash]).isPrefixOf left_path ||
    scope_has_glob left_path && fnmatchcase right_path left_path ||
    scope_has_glob right_path && fnmatchcase left_path right_path ||
    (scope_has_glob left_path || scope_has_glob right_path) &&
      (left_static = [] || right_static = [] || right_static.isPrefixOf left_static ||
        left_static.isPrefixOf right_static))

end ClaudeCodeBridge.Model.Scopes
