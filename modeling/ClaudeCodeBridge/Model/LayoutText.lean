import ClaudeCodeBridge.Program.Operands
import ClaudeCodeBridge.Model.JobEvents
import ClaudeCodeBridge.Model.ReloadPlans

/-!
# Texts of layouts

`lib/agents/models_runtime/layout_runtime/parser.py`: a layout is written as leaves between `;`
(left and right) and `,` (top and bottom), the second binding stronger, with parentheses around
groups.  A leaf may have parentheses of its own, for its worktree and its weight, and a percentage
after an `@`.  `build_project_layout_plan` prunes a layout to the panes that a start asks for; its
signature is the rendering of what is left.

What Unicode takes for a decimal digit is a parameter.
-/

set_option autoImplicit false

namespace ClaudeCodeBridge.Model.LayoutText

open Program
open Model.Relay (strip isSpace)
open Model.JobEvents (AgentNameError normalize_agent_name isLetter lowerChar)
open Model.ReloadPatch (LayoutLeaf LayoutNode BranchKind)

/-- `unicodedata.decimal`. -/
structure Decimals where
  value : Fin 0x110000 → Option ℕ
  lt_ten : ∀ c n, value c = some n → n < 10
  ascii : ∀ c : Fin 0x110000, 48 ≤ c.val → c.val ≤ 57 → value c = some (c.val - 48)

inductive LayoutError where
  /-- `layout is empty`. -/
  | empty
  /-- `unexpected token '<token>'`. -/
  | unexpected_token (token : Text)
  /-- `unexpected end of layout`. -/
  | unexpected_end
  /-- `expected '<expected>', found '<found>'`. -/
  | expected (expected : Text) (found : Option Text)
  /-- `invalid layout token '<token>'; expected ...`. -/
  | invalid_token (token : Text)
  /-- `int` reads no more than 4300 digits. -/
  | too_many_digits
  /-- The bound on the turns of a loop. -/
  | stuck
  deriving DecidableEq

def isLineEnd (c : Fin 0x110000) : Bool :=
  let n := c.val
  (0x0A ≤ n && n ≤ 0x0D) || (0x1C ≤ n && n ≤ 0x1E) || n = 0x85 || n = 0x2028 || n = 0x2029

/-- `str.splitlines`, after what was carried over; `after` says that a carriage return has just
been read. -/
def splitlinesFrom : Bool → Text → Text → List Text
  | _, carry, [] => if carry = [] then [] else [carry]
  | after, carry, c :: rest =>
    if after && c.val = 0x0A then splitlinesFrom false carry rest
    else if isLineEnd c then carry :: splitlinesFrom (c.val = 0x0D) [] rest
    else splitlinesFrom false (carry ++ [c]) rest

def splitlines (text : Text) : List Text := splitlinesFrom false [] text

/-- `line.split('//', 1)[0]`. -/
def before_slashes : Text → Text
  | [] => []
  | [c] => [c]
  | c :: d :: rest =>
    if c.val = 0x2F ∧ d.val = 0x2F then [] else c :: before_slashes (d :: rest)

def without_comment (raw_line : Text) : Text :=
  before_slashes (raw_line.takeWhile fun c => c.val ≠ 0x23)

def opening : Fin 0x110000 := 0x28

def closing : Fin 0x110000 := 0x29

def semicolon : Fin 0x110000 := 0x3B

def comma : Fin 0x110000 := 0x2C

def append_leaf_token (buf : Text) : List Text := if strip buf = [] then [] else [strip buf]

/-- The tokens of the rest of a line, with what has been read of a leaf; `copied` says that a
parenthesis of the leaf is copied to its end. -/
def tokenize_rest : Bool → Text → Text → List Text
  | _, buf, [] => append_leaf_token buf
  | copied, buf, c :: rest =>
    if copied then tokenize_rest (c ≠ closing) (buf ++ [c]) rest
    else if c = opening ∧ strip buf ≠ [] ∧ closing ∈ rest then tokenize_rest true (buf ++ [c]) rest
    else if c ∈ [opening, closing, semicolon, comma] then
      append_leaf_token buf ++ [c] :: tokenize_rest false [] rest
    else tokenize_rest false (buf ++ [c]) rest

def tokenize (text : Text) : List Text :=
  (splitlines text).flatMap fun raw_line => tokenize_rest false [] (without_comment raw_line)

def isDigit (c : Fin 0x110000) : Bool := 48 ≤ c.val && c.val ≤ 57

/-- `[A-Za-z0-9_-]`. -/
def isProviderChar (c : Fin 0x110000) : Bool := isLetter c || isDigit c || c.val = 95 || c.val = 45

/-- `[A-Za-z0-9_.-]`. -/
def isLeafChar (c : Fin 0x110000) : Bool := isProviderChar c || c.val = 46

/-- What follows a character, after spaces. -/
def after_char (c : Fin 0x110000) (text : Text) : Option Text :=
  match text.dropWhile isSpace with
  | [] => none
  | d :: rest => if d = c then some (rest.dropWhile isSpace) else none

/-- What follows a word. -/
def after_word (word text : Text) : Option Text :=
  if word.isPrefixOf text then some (text.drop word.length) else none

/-- `(?:\s*\(\s*(?P<workspace_mode>worktree)\s*\))?`. -/
def match_worktree (text : Text) : Bool × Text :=
  match (after_char opening text).bind (after_word (asciiText "worktree")) with
  | none => (false, text)
  | some rest =>
    match rest.dropWhile isSpace with
    | [] => (false, text)
    | c :: rest => if c = closing then (true, rest) else (false, text)

/-- The provider, whether it has a worktree, and the rest of the token. -/
def match_provider (text : Text) : Option (Text × Bool) × Text :=
  match after_char 0x3A text with
  | none => (none, text)
  | some rest =>
    let provider := rest.takeWhile isProviderChar
    if provider = [] then (none, text)
    else
      let (worktree, rest) := match_worktree (rest.dropWhile isProviderChar)
      (some (provider, worktree), rest)

/-- `(?:\s*\(\s*(?P<weight>[1-9][0-9]*)\s*\))?`. -/
def match_weight (text : Text) : Option Text × Text :=
  match after_char opening text with
  | none => (none, text)
  | some rest =>
    let weight := rest.takeWhile isDigit
    if weight.head?.all fun c => c.val = 48 then (none, text)
    else
      match (rest.dropWhile isDigit).dropWhile isSpace with
      | [] => (none, text)
      | c :: rest => if c = closing then (some weight, rest) else (none, text)

variable (decimals : Decimals)

/-- `(?:\s*@\s*(?P<percent>\d+))?$`, if the rest of the token is that. -/
def match_percent (text : Text) : Option (Option Text) :=
  if text = [] then some none
  else
    match after_char 0x40 text with
    | none => none
    | some percent =>
      if percent ≠ [] ∧ percent.all fun c => (decimals.value c).isSome then some (some percent)
      else none

def max_str_digits : ℕ := 4300

/-- `int(digits)`. -/
def int_of_digits (digits : Text) : Except LayoutError ℕ :=
  if digits.length > max_str_digits then .error .too_many_digits
  else .ok (digits.foldl (fun n c => 10 * n + (decimals.value c).getD 0) 0)

/-- `int(digits) if digits else default`. -/
def int_or {α : Type} (digits : Option Text) (default : α) (of_int : ℕ → α) :
    Except LayoutError α :=
  match digits with
  | none => .ok default
  | some digits => (int_of_digits decimals digits).map of_int

def parse_leaf (token : Text) : Except LayoutError LayoutNode :=
  let name := token.takeWhile isLeafChar
  let provider := match_provider (token.dropWhile isLeafChar)
  let weight := match_weight provider.2
  match match_percent decimals weight.2 with
  | none => .error (.invalid_token token)
  | some percent =>
    if (name.head?.all fun c => !isLetter c) || name.length > 64 then
      .error (.invalid_token token)
    else do
      let weight ← int_or decimals weight.1 1 id
      let percent ← int_or decimals percent none some
      return .leaf
        { name := name
          provider := provider.1.map Prod.fst
          worktree := (provider.1.map Prod.snd).getD false
          weight := weight
          percent := percent }

abbrev LayoutRule := Rule Text LayoutNode LayoutError

def consume (token : Text) : List Text → Except LayoutError (List Text)
  | [] => .error (.expected token none)
  | next :: rest => if next = token then .ok rest else .error (.expected token (some next))

def parse_primary (parse_horizontal : LayoutRule) : LayoutRule
  | [] => .error .unexpected_end
  | token :: rest =>
    if token = [opening] then do
      let (node, rest) ← parse_horizontal rest
      let rest ← consume [closing] rest
      return (node, rest)
    else if token ∈ [[closing], [semicolon], [comma]] then .error (.unexpected_token token)
    else do
      let node ← parse_leaf decimals token
      return (node, rest)

def parse_vertical (parse_horizontal : LayoutRule) : LayoutRule :=
  operands .stuck [comma] (.branch .vertical) (parse_primary decimals parse_horizontal)

/-- `_parse_horizontal`, of groups of some depth. -/
def parse_horizontal : ℕ → LayoutRule
  | 0 => fun _ => .error .stuck
  | depth + 1 =>
    operands .stuck [semicolon] (.branch .horizontal)
      (parse_vertical decimals (parse_horizontal depth))

/-- `parse`. -/
def parse_tokens (tokens : List Text) : Except LayoutError LayoutNode :=
  if tokens = [] then .error .empty
  else do
    let (node, rest) ← parse_horizontal decimals (tokens.length + 1) tokens
    match rest with
    | [] => return node
    | token :: _ => .error (.unexpected_token token)

def parse_layout_spec (text : Text) : Except LayoutError LayoutNode :=
  parse_tokens decimals (tokenize text)

/-- `prune_layout`, of names in lower case. -/
def prune_layout (included : List Text) : LayoutNode → Option LayoutNode
  | .leaf item => if item.name.map lowerChar ∈ included then some (.leaf item) else none
  | .branch kind left right =>
    match prune_layout included left, prune_layout included right with
    | none, right => right
    | left, none => left
    | some left, some right => some (.branch kind left right)

structure LayoutWindow where
  layout_spec : Text
  tool_names : List Text

structure ProjectConfig where
  agents : List Text
  default_agents : List Text
  cmd_enabled : Bool
  windows_explicit : Bool
  windows : List LayoutWindow
  layout_spec : Text

inductive PlanError where
  | agent_name (error : AgentNameError)
  /-- `unknown agent: <item>`. -/
  | unknown_agent (item : Text)
  | layout (error : LayoutError)
  /-- `layout_spec does not include any visible panes for the requested start`. -/
  | no_visible_panes
  /-- `pruned layout must retain cmd as the first visible pane`. -/
  | cmd_not_first
  deriving DecidableEq

structure ProjectLayoutPlan where
  target_agent_names : List Text
  visible_leaf_names : List Text
  layout : LayoutNode
  signature : Text
  cmd_enabled : Bool

namespace ProjectConfig

variable (config : ProjectConfig)

/-- The loop of `select_project_layout_targets`. -/
def select_targets (selected : List Text) : List Text → Except PlanError (List Text)
  | [] => .ok selected
  | item :: rest =>
    match normalize_agent_name item with
    | .error error => .error (.agent_name error)
    | .ok lowered =>
      if lowered ∉ config.agents then .error (.unknown_agent item)
      else select_targets (if lowered ∈ selected then selected else selected ++ [lowered]) rest

def select_project_layout_targets (requested_agents : List Text) : Except PlanError (List Text) :=
  if requested_agents = [] then .ok config.default_agents
  else config.select_targets [] (requested_agents.map strip)

/-- `tuple(normalize_agent_name(item) for item in target_agent_names)`. -/
def normalized_targets : List Text → Except PlanError (List Text)
  | [] => .ok []
  | item :: rest =>
    match normalize_agent_name item with
    | .error error => .error (.agent_name error)
    | .ok name => (normalized_targets rest).map (name :: ·)

/-- The targets of `build_project_layout_plan`. -/
def plan_targets (requested_agents : List Text) (target_agent_names : Option (List Text)) :
    Except PlanError (List Text) :=
  match target_agent_names with
  | some names => normalized_targets names
  | none => config.select_project_layout_targets requested_agents

def layout_source : Text :=
  if config.windows_explicit then
    (asciiText "; ").intercalate (config.windows.map LayoutWindow.layout_spec)
  else config.layout_spec

def layout_tool_names : List Text :=
  (config.windows.flatMap LayoutWindow.tool_names).foldl (fun names name =>
    if strip name = [] ∨ strip name ∈ names then names else names ++ [strip name]) []

def build_project_layout_plan (requested_agents : List Text)
    (target_agent_names : Option (List Text)) : Except PlanError ProjectLayoutPlan := do
  let targets ← config.plan_targets requested_agents target_agent_names
  let include_names :=
    (if config.cmd_enabled then [asciiText "cmd"] else []) ++ targets ++ config.layout_tool_names
  let parsed ← (parse_layout_spec decimals config.layout_source).mapError PlanError.layout
  let included := (include_names.map strip).filter fun name => name ≠ []
  match prune_layout (included.map (List.map lowerChar)) parsed with
  | none => .error .no_visible_panes
  | some layout =>
    let visible_leaf_names := layout.iter_leaves.map LayoutLeaf.name
    if config.cmd_enabled ∧ visible_leaf_names.take 1 ≠ [asciiText "cmd"] then
      .error .cmd_not_first
    else
      return {
        target_agent_names := targets
        visible_leaf_names := visible_leaf_names
        layout := layout
        signature := layout.render
        cmd_enabled := config.cmd_enabled }

end ProjectConfig

end ClaudeCodeBridge.Model.LayoutText
