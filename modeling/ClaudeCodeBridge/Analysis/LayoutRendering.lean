import ClaudeCodeBridge.Analysis.LayoutTokens

/-!
# Renderings of layouts

The tokens of a rendered layout are read from the left, and no parentheses tell a group on the
right from the rest of a chain of its own kind.  What is read back is the layout grouped from the
left (`parse_render`), which is the layout itself exactly where no branch has a right child of its
own kind (`regroup_eq_self_iff`).
-/

set_option autoImplicit false

namespace ClaudeCodeBridge.Analysis.LayoutText

open Program
open Model.LayoutText
open Model.ReloadPatch (LayoutLeaf LayoutNode BranchKind render_child)

variable {decimals : Decimals} {text : Text}

mutual

/-- A layout, with the operands of another one after it that are of a kind. -/
def graft (kind : BranchKind) (node : LayoutNode) : LayoutNode → LayoutNode
  | .leaf item => .branch kind node (.leaf item)
  | .branch right_kind left right =>
    if right_kind = kind then graft kind (graft kind node left) right
    else .branch kind node (graft right_kind (regroup left) right)

def regroup : LayoutNode → LayoutNode
  | .leaf item => .leaf item
  | .branch kind left right => graft kind (regroup left) right

end

def kindOf : LayoutNode → Option BranchKind
  | .leaf _ => none
  | .branch kind _ _ => some kind

def LeftNested : LayoutNode → Prop
  | .leaf _ => True
  | .branch kind left right => LeftNested left ∧ LeftNested right ∧ kindOf right ≠ some kind

variable {right : LayoutNode}

theorem graft_of_ne {kind : BranchKind} (h : kindOf right ≠ some kind)
    (node : LayoutNode) : graft kind node right = .branch kind node (regroup right) := by
  cases right with
  | leaf item => rw [graft, regroup]
  | branch right_kind left right =>
    have hne : right_kind ≠ kind := fun heq => h (congrArg some heq)
    rw [graft, if_neg hne, regroup]

theorem kindOf_leaf_ne (item : LayoutLeaf) (kind : BranchKind) :
    kindOf (.leaf item) ≠ some kind := fun heq => by cases heq

theorem kindOf_branch (kind : BranchKind) (left right : LayoutNode) :
    kindOf (.branch kind left right) = some kind := rfl

theorem kindOf_branch_ne {kind other : BranchKind} (h : kind ≠ other) (left right : LayoutNode) :
    kindOf (.branch kind left right) ≠ some other := fun heq => h (Option.some_inj.mp heq)

theorem graft_branch (kind : BranchKind) (node left right : LayoutNode) :
    graft kind node (.branch kind left right) = graft kind (graft kind node left) right := by
  rw [graft, if_pos rfl]

theorem kindOf_graft (kind : BranchKind) (node right : LayoutNode) :
    kindOf (graft kind node right) = some kind := by
  induction right generalizing node with
  | leaf item =>
    rw [graft]
    rfl
  | branch right_kind left right _ ihright =>
    by_cases hkind : right_kind = kind
    · subst hkind
      rw [graft_branch]
      exact ihright _
    · rw [graft_of_ne (kindOf_branch_ne hkind _ _)]
      rfl

theorem leftNested_regroup (node : LayoutNode) :
    LeftNested (regroup node) ∧ kindOf (regroup node) = kindOf node ∧
      ∀ (kind : BranchKind) (first : LayoutNode), LeftNested first →
        LeftNested (graft kind first node) := by
  induction node with
  | leaf item =>
    refine ⟨trivial, rfl, ?_⟩
    intro kind first hfirst
    rw [graft]
    exact ⟨hfirst, trivial, fun h => by cases h⟩
  | branch node_kind left right ihleft ihright =>
    have hself : LeftNested (regroup (.branch node_kind left right)) ∧
        kindOf (regroup (.branch node_kind left right)) = some node_kind := by
      rw [regroup]
      exact ⟨ihright.2.2 node_kind (regroup left) ihleft.1, kindOf_graft _ _ right⟩
    refine ⟨hself.1, hself.2, ?_⟩
    intro kind first hfirst
    by_cases hkind : node_kind = kind
    · subst hkind
      rw [graft_branch]
      exact ihright.2.2 node_kind _ (ihleft.2.2 node_kind first hfirst)
    · have hne := kindOf_branch_ne hkind left right
      rw [graft_of_ne hne]
      refine ⟨hfirst, hself.1, ?_⟩
      rw [hself.2]
      exact hne

variable {node : LayoutNode}

theorem regroup_of_leftNested (h : LeftNested node) : regroup node = node := by
  induction node with
  | leaf item => rw [regroup]
  | branch kind left right ihleft ihright =>
    rw [regroup, graft_of_ne h.2.2, ihleft h.1, ihright h.2.1]

theorem regroup_eq_self_iff (node : LayoutNode) : regroup node = node ↔ LeftNested node := by
  constructor
  · intro h
    rw [← h]
    exact (leftNested_regroup node).1
  · exact regroup_of_leftNested

theorem render_child_congr {other : LayoutNode} (hkind : kindOf node = kindOf other)
    (parent_kind : BranchKind) (text : Text) :
    render_child node parent_kind text = render_child other parent_kind text := by
  cases node with
  | leaf item =>
    cases other with
    | leaf item => rfl
    | branch kind left right => cases hkind
  | branch kind left right =>
    cases other with
    | leaf item => cases hkind
    | branch kind left right =>
      cases hkind
      cases kind <;> cases parent_kind <;> rfl

theorem render_child_same {kind : BranchKind} (h : kindOf node = some kind)
    (text : Text) : render_child node kind text = text := by
  cases node with
  | leaf item => cases h
  | branch node_kind left right =>
    cases h
    cases kind <;> rfl

/-- Layouts that differ in their grouping only have one rendering. -/
theorem render_regroup (node : LayoutNode) :
    (regroup node).render = node.render ∧
      ∀ (kind : BranchKind) (first : LayoutNode),
        (graft kind first node).render = (LayoutNode.branch kind first node).render := by
  induction node with
  | leaf item =>
    refine ⟨by rw [regroup], ?_⟩
    intro kind first
    rw [graft]
  | branch node_kind left right ihleft ihright =>
    have hkind : kindOf (regroup left) = kindOf left := (leftNested_regroup left).2.1
    have hself : (regroup (.branch node_kind left right)).render =
        (LayoutNode.branch node_kind left right).render := by
      rw [regroup, ihright.2, render_branch, render_branch, ihleft.1, render_child_congr hkind]
    refine ⟨hself, ?_⟩
    intro kind first
    by_cases hsame : node_kind = kind
    · subst hsame
      have hgraft := kindOf_graft node_kind first left
      rw [graft_branch, ihright.2, render_branch, render_child_same hgraft, ihleft.2,
        render_branch, render_branch, render_child_same (kindOf_branch node_kind left right),
        render_branch]
      simp
    · have hne := kindOf_branch_ne hsame left right
      have hregroup := (leftNested_regroup (.branch node_kind left right)).2.1
      rw [graft_of_ne hne, render_branch, render_branch, hself, render_child_congr hregroup]

variable {horizontal : LayoutRule} {depth : ℕ}

theorem consumes_primary (h : horizontal.Consumes) :
    (parse_primary decimals horizontal).Consumes := by
  intro tokens node rest hread
  cases tokens with
  | nil => cases hread
  | cons token tokens =>
    rw [parse_primary] at hread
    split at hread
    · obtain ⟨⟨inner, after⟩, hinner, hread⟩ := bind_ok.mp hread
      obtain ⟨closed, hclose, hread⟩ := bind_ok.mp hread
      cases hread
      have hlength := h _ node after hinner
      cases after with
      | nil => cases hclose
      | cons next after =>
        rw [consume] at hclose
        split at hclose
        · cases hclose
          rw [List.length_cons] at hlength ⊢
          omega
        · cases hclose
    · split at hread
      · cases hread
      · obtain ⟨leaf, -, hread⟩ := bind_ok.mp hread
        cases hread
        exact Nat.lt_succ_self _

theorem consumes_vertical (h : horizontal.Consumes) :
    (parse_vertical decimals horizontal).Consumes :=
  (consumes_primary h).operands

theorem consumes_horizontal (decimals : Decimals) (depth : ℕ) :
    (parse_horizontal decimals depth).Consumes := by
  induction depth with
  | zero =>
    intro tokens node rest hread
    cases hread
  | succ depth ih => exact (consumes_vertical ih).operands

theorem yields_horizontal (decimals : Decimals) (depth : ℕ) :
    (parse_horizontal decimals depth).Yields LeavesWellFormed := by
  induction depth with
  | zero =>
    intro tokens node rest hread
    cases hread
  | succ depth ih =>
    have hprimary : (parse_primary decimals (parse_horizontal decimals depth)).Yields
        LeavesWellFormed := by
      intro tokens node rest hread
      cases tokens with
      | nil => cases hread
      | cons token tokens =>
        rw [parse_primary] at hread
        split at hread
        · obtain ⟨⟨inner, after⟩, hinner, hread⟩ := bind_ok.mp hread
          obtain ⟨closed, -, hread⟩ := bind_ok.mp hread
          cases hread
          exact ih _ node after hinner
        · split at hread
          · cases hread
          · obtain ⟨leaf, hleaf, hread⟩ := bind_ok.mp hread
            cases hread
            obtain ⟨item, rfl, hitem⟩ := wellFormed_of_parse_leaf hleaf
            exact hitem
    have hbranch : ∀ (kind : BranchKind) (left right : LayoutNode), LeavesWellFormed left →
        LeavesWellFormed right → LeavesWellFormed (.branch kind left right) :=
      fun _ _ _ hleft hright => ⟨hleft, hright⟩
    exact (hprimary.operands (hbranch .vertical)).operands (hbranch .horizontal)

theorem leavesWellFormed_of_parse
    (h : parse_layout_spec decimals text = .ok node) : LeavesWellFormed node := by
  unfold parse_layout_spec parse_tokens at h
  split at h
  · cases h
  · obtain ⟨⟨read, rest⟩, hread, h⟩ := bind_ok.mp h
    cases rest with
    | nil =>
      cases h
      exact yields_horizontal decimals _ _ _ _ hread
    | cons token rest => cases h

abbrev chainVertical (decimals : Decimals) (horizontal : LayoutRule) (node : LayoutNode) :
    LayoutRule :=
  chain .stuck [comma] (.branch .vertical) (parse_primary decimals horizontal) node

abbrev chainHorizontal (decimals : Decimals) (horizontal : LayoutRule) (node : LayoutNode) :
    LayoutRule :=
  chain .stuck [semicolon] (.branch .horizontal) (parse_vertical decimals horizontal) node

theorem chainVertical_comma (h : horizontal.Consumes) (node : LayoutNode) (rest : List Text) :
    chainVertical decimals horizontal node ([comma] :: rest) =
      (parse_primary decimals horizontal rest).bind fun next =>
        chainVertical decimals horizontal (.branch .vertical node next.1) next.2 :=
  chain_separator (consumes_primary h) node rest

theorem chainHorizontal_semicolon (h : horizontal.Consumes) (node : LayoutNode) (rest : List Text) :
    chainHorizontal decimals horizontal node ([semicolon] :: rest) =
      (parse_vertical decimals horizontal rest).bind fun next =>
        chainHorizontal decimals horizontal (.branch .horizontal node next.1) next.2 :=
  chain_separator (consumes_vertical h) node rest

theorem chainHorizontal_end (node : LayoutNode) {tokens : List Text}
    (h : tokens.head? ≠ some [semicolon]) :
    chainHorizontal decimals horizontal node tokens = .ok (node, tokens) := chain_end node h

theorem parse_horizontal_succ (tokens : List Text) :
    parse_horizontal decimals (depth + 1) tokens =
      (parse_vertical decimals (parse_horizontal decimals depth) tokens).bind fun first =>
        chainHorizontal decimals (parse_horizontal decimals depth) first.1 first.2 := rfl

theorem parse_vertical_eq (tokens : List Text) :
    parse_vertical decimals horizontal tokens =
      (parse_primary decimals horizontal tokens).bind fun first =>
        chainVertical decimals horizontal first.1 first.2 := rfl

abbrev verticalTokens (node : LayoutNode) : List Text :=
  childTokens node .vertical (tokensOf node)

theorem childTokens_horizontal (node : LayoutNode) (tokens : List Text) :
    childTokens node .horizontal tokens = tokens := by
  cases node with
  | leaf item => rfl
  | branch kind left right => cases kind <;> rfl

theorem tokensOf_vertical (left right : LayoutNode) :
    tokensOf (.branch .vertical left right) =
      verticalTokens left ++ [comma] :: verticalTokens right := rfl

theorem tokensOf_horizontal (left right : LayoutNode) :
    tokensOf (.branch .horizontal left right) = tokensOf left ++ [semicolon] :: tokensOf right := by
  rw [tokensOf, childTokens_horizontal, childTokens_horizontal]
  rfl

/-- The tokens of a layout are read as the first operands of a vertical chain. -/
def ReadsVertical (decimals : Decimals) (node : LayoutNode) : Prop :=
  ∀ (depth : ℕ) (rest : List Text), (verticalTokens node).length ≤ depth →
    parse_vertical decimals (parse_horizontal decimals depth) (verticalTokens node ++ rest) =
      chainVertical decimals (parse_horizontal decimals depth) (regroup node) rest

/-- They are read as the next operands of a vertical chain that has begun. -/
def MoreVertical (decimals : Decimals) (node : LayoutNode) : Prop :=
  ∀ (depth : ℕ) (first : LayoutNode) (rest : List Text), (verticalTokens node).length ≤ depth →
    chainVertical decimals (parse_horizontal decimals depth) first
        ([comma] :: (verticalTokens node ++ rest)) =
      chainVertical decimals (parse_horizontal decimals depth) (graft .vertical first node) rest

def ReadsHorizontal (decimals : Decimals) (node : LayoutNode) : Prop :=
  ∀ (depth : ℕ) (rest : List Text), (tokensOf node).length ≤ depth →
    rest.head? ≠ some [comma] →
    parse_horizontal decimals (depth + 1) (tokensOf node ++ rest) =
      chainHorizontal decimals (parse_horizontal decimals depth) (regroup node) rest

def MoreHorizontal (decimals : Decimals) (node : LayoutNode) : Prop :=
  ∀ (depth : ℕ) (first : LayoutNode) (rest : List Text), (tokensOf node).length ≤ depth →
    rest.head? ≠ some [comma] →
    chainHorizontal decimals (parse_horizontal decimals depth) first
        ([semicolon] :: (tokensOf node ++ rest)) =
      chainHorizontal decimals (parse_horizontal decimals depth) (graft .horizontal first node) rest

structure ReadsBack (decimals : Decimals) (node : LayoutNode) : Prop where
  vertical : ReadsVertical decimals node
  more_vertical : MoreVertical decimals node
  horizontal : ReadsHorizontal decimals node
  more_horizontal : MoreHorizontal decimals node

theorem ReadsBack.of_operand (hkind : kindOf node ≠ some .vertical)
    (h : ∀ (depth : ℕ) (rest : List Text), (verticalTokens node).length ≤ depth →
      parse_primary decimals (parse_horizontal decimals depth) (verticalTokens node ++ rest) =
        .ok (regroup node, rest)) :
    ReadsVertical decimals node ∧ MoreVertical decimals node := by
  constructor
  · intro depth rest hdepth
    rw [parse_vertical_eq, h depth rest hdepth]
    rfl
  · intro depth first rest hdepth
    rw [chainVertical_comma (consumes_horizontal decimals depth), h depth rest hdepth,
      graft_of_ne hkind]
    rfl

theorem ReadsBack.of_vertical (hkind : kindOf node ≠ some .horizontal)
    (h : ∀ (depth : ℕ) (rest : List Text), (tokensOf node).length ≤ depth →
      parse_vertical decimals (parse_horizontal decimals depth) (tokensOf node ++ rest) =
        chainVertical decimals (parse_horizontal decimals depth) (regroup node) rest) :
    ReadsHorizontal decimals node ∧ MoreHorizontal decimals node := by
  have hread : ∀ (depth : ℕ) (rest : List Text), (tokensOf node).length ≤ depth →
      rest.head? ≠ some [comma] →
      parse_vertical decimals (parse_horizontal decimals depth) (tokensOf node ++ rest) =
        .ok (regroup node, rest) := by
    intro depth rest hdepth hrest
    rw [h depth rest hdepth]
    exact chain_end _ hrest
  constructor
  · intro depth rest hdepth hrest
    rw [parse_horizontal_succ, hread depth rest hdepth hrest]
    rfl
  · intro depth first rest hdepth hrest
    rw [chainHorizontal_semicolon (consumes_horizontal decimals depth),
      hread depth rest hdepth hrest, graft_of_ne hkind]
    rfl

theorem readsBack_leaf {item : LayoutLeaf} (h : WellFormed item) :
    ReadsBack decimals (.leaf item) := by
  have hprimary : ∀ (depth : ℕ) (rest : List Text), (verticalTokens (.leaf item)).length ≤ depth →
      parse_primary decimals (parse_horizontal decimals depth)
        (verticalTokens (.leaf item) ++ rest) = .ok (regroup (.leaf item), rest) := by
    intro depth rest _
    obtain ⟨c, name, hname, hletter⟩ := h.name_head
    have hc : isPlain c = true := by
      apply isPlain_of_isLeafChar
      apply h.name_chars
      rw [hname]
      exact List.mem_cons_self
    have hne : ∀ d ∈ [opening, closing, semicolon, comma], item.render ≠ [d] := by
      intro d hd heq
      rw [render_eq, hname, List.cons_append, List.cons.injEq] at heq
      obtain ⟨rfl, -⟩ := heq
      have hnot : ∀ e ∈ [opening, closing, semicolon, comma], isPlain e = false := by
        intro e he
        simp only [List.mem_cons, List.not_mem_nil, or_false] at he
        obtain rfl | rfl | rfl | rfl := he <;> decide
      rw [hnot c hd] at hc
      cases hc
    change parse_primary decimals (parse_horizontal decimals depth) (item.render :: rest) = _
    rw [parse_primary, if_neg (hne opening (by simp)), if_neg, parse_leaf_render h, regroup]
    · rfl
    · simp only [List.mem_cons, List.not_mem_nil, or_false, not_or]
      exact ⟨hne closing (by simp), hne semicolon (by simp), hne comma (by simp)⟩
  have hvertical := ReadsBack.of_operand (fun h => by cases h) hprimary
  have hhorizontal := ReadsBack.of_vertical (kindOf_leaf_ne item .horizontal) hvertical.1
  exact
    { vertical := hvertical.1
      more_vertical := hvertical.2
      horizontal := hhorizontal.1
      more_horizontal := hhorizontal.2 }

theorem ReadsBack.vertical_branch {left : LayoutNode} (hleft : ReadsBack decimals left)
    (hright : ReadsBack decimals right) : ReadsBack decimals (.branch .vertical left right) := by
  have hlength : ∀ {depth : ℕ},
      (verticalTokens (.branch .vertical left right)).length ≤ depth →
      (verticalTokens left).length ≤ depth ∧ (verticalTokens right).length ≤ depth := by
    intro depth hdepth
    change (tokensOf (.branch .vertical left right)).length ≤ depth at hdepth
    rw [tokensOf_vertical, List.length_append, List.length_cons] at hdepth
    omega
  have hvertical : ReadsVertical decimals (.branch .vertical left right) := by
    intro depth rest hdepth
    change parse_vertical decimals (parse_horizontal decimals depth)
      (tokensOf (.branch .vertical left right) ++ rest) = _
    rw [tokensOf_vertical, List.append_assoc, List.cons_append,
      hleft.vertical depth _ (hlength hdepth).1, hright.more_vertical depth _ _ (hlength hdepth).2,
      regroup]
  have hhorizontal := ReadsBack.of_vertical (kindOf_branch_ne (by decide) left right) hvertical
  refine
    { vertical := hvertical
      more_vertical := ?_
      horizontal := hhorizontal.1
      more_horizontal := hhorizontal.2 }
  intro depth first rest hdepth
  change chainVertical decimals (parse_horizontal decimals depth) first
    ([comma] :: (tokensOf (.branch .vertical left right) ++ rest)) = _
  rw [tokensOf_vertical, List.append_assoc, List.cons_append,
    hleft.more_vertical depth _ _ (hlength hdepth).1,
    hright.more_vertical depth _ _ (hlength hdepth).2, graft_branch]

theorem ReadsBack.horizontal_branch {left : LayoutNode} (hleft : ReadsBack decimals left)
    (hright : ReadsBack decimals right) : ReadsBack decimals (.branch .horizontal left right) := by
  have hlength : ∀ {depth : ℕ}, (tokensOf (.branch .horizontal left right)).length ≤ depth →
      (tokensOf left).length ≤ depth ∧ (tokensOf right).length ≤ depth := by
    intro depth hdepth
    rw [tokensOf_horizontal, List.length_append, List.length_cons] at hdepth
    omega
  have hne : ∀ rest : List Text, ([semicolon] :: rest).head? ≠ some [comma] := by
    intro rest heq
    rw [List.head?_cons, Option.some_inj] at heq
    revert heq
    decide
  have hhorizontal : ReadsHorizontal decimals (.branch .horizontal left right) := by
    intro depth rest hdepth hrest
    rw [tokensOf_horizontal, List.append_assoc, List.cons_append,
      hleft.horizontal depth _ (hlength hdepth).1 (hne _),
      hright.more_horizontal depth _ _ (hlength hdepth).2 hrest, regroup]
  -- Under a vertical branch the layout stands in parentheses, and is one operand.
  have hprimary : ∀ (depth : ℕ) (rest : List Text),
      (verticalTokens (.branch .horizontal left right)).length ≤ depth →
      parse_primary decimals (parse_horizontal decimals depth)
          (verticalTokens (.branch .horizontal left right) ++ rest) =
        .ok (regroup (.branch .horizontal left right), rest) := by
    intro depth rest hdepth
    have htokens : verticalTokens (.branch .horizontal left right) =
        [opening] :: (tokensOf (.branch .horizontal left right) ++ [[closing]]) := rfl
    rw [htokens, List.length_cons, List.length_append, List.length_singleton] at hdepth
    obtain ⟨fewer, rfl⟩ : ∃ fewer, depth = fewer + 1 := ⟨depth - 1, by omega⟩
    have hclosing : ∀ token : Text, token ≠ [closing] →
        ([closing] :: rest : List Text).head? ≠ some token := by
      intro token hne heq
      rw [List.head?_cons, Option.some_inj] at heq
      exact hne heq.symm
    rw [htokens, List.cons_append, parse_primary, if_pos rfl, List.append_assoc,
      List.singleton_append, hhorizontal fewer _ (by omega) (hclosing _ (by decide)),
      chainHorizontal_end _ (hclosing _ (by decide))]
    rfl
  have hvertical := ReadsBack.of_operand (kindOf_branch_ne (by decide) left right) hprimary
  refine
    { vertical := hvertical.1
      more_vertical := hvertical.2
      horizontal := hhorizontal
      more_horizontal := ?_ }
  intro depth first rest hdepth hrest
  rw [tokensOf_horizontal, List.append_assoc, List.cons_append,
    hleft.more_horizontal depth _ _ (hlength hdepth).1 (hne _),
    hright.more_horizontal depth _ _ (hlength hdepth).2 hrest, graft_branch]

theorem readsBack (h : LeavesWellFormed node) : ReadsBack decimals node := by
  induction node with
  | leaf item => exact readsBack_leaf h
  | branch kind left right ihleft ihright =>
    cases kind with
    | horizontal => exact (ihleft h.1).horizontal_branch (ihright h.2)
    | vertical => exact (ihleft h.1).vertical_branch (ihright h.2)

theorem parse_render (h : LeavesWellFormed node) :
    parse_layout_spec decimals node.render = .ok (regroup node) := by
  have hback : ReadsBack decimals node := readsBack h
  have hread := hback.horizontal (tokensOf node).length [] le_rfl (by simp)
  have hne : tokensOf node ≠ [] := by
    cases node with
    | leaf item => exact List.cons_ne_nil _ _
    | branch kind left right =>
      rw [tokensOf]
      simp
  rw [List.append_nil] at hread
  unfold parse_layout_spec parse_tokens
  rw [tokenize_render h, if_neg hne, hread, chainHorizontal_end _ (by simp)]
  rfl

/-- A plan that is made for some configuration. -/
def Planned (decimals : Decimals) (plan : ProjectLayoutPlan) : Prop :=
  ∃ (config : ProjectConfig) (requested_agents : List Text)
    (target_agent_names : Option (List Text)),
    config.build_project_layout_plan decimals requested_agents target_agent_names = .ok plan

theorem leavesWellFormed_prune {included : List Text} {pruned : LayoutNode}
    (h : LeavesWellFormed node) (hpruned : prune_layout included node = some pruned) :
    LeavesWellFormed pruned := by
  induction node generalizing pruned with
  | leaf item =>
    rw [prune_layout] at hpruned
    split at hpruned
    · cases hpruned
      exact h
    · cases hpruned
  | branch kind left right ihleft ihright =>
    rw [prune_layout] at hpruned
    cases hleft : prune_layout included left with
    | none =>
      rw [hleft] at hpruned
      exact ihright h.2 hpruned
    | some first =>
      cases hright : prune_layout included right with
      | none =>
        rw [hleft, hright] at hpruned
        cases hpruned
        exact ihleft h.1 hleft
      | some second =>
        rw [hleft, hright] at hpruned
        cases hpruned
        exact ⟨ihleft h.1 hleft, ihright h.2 hright⟩

theorem signature_of_planned {plan : ProjectLayoutPlan} (h : Planned decimals plan) :
    plan.signature = plan.layout.render ∧ LeavesWellFormed plan.layout := by
  obtain ⟨config, requested_agents, target_agent_names, hplan⟩ := h
  unfold ProjectConfig.build_project_layout_plan at hplan
  obtain ⟨targets, -, hplan⟩ := bind_ok.mp hplan
  obtain ⟨parsed, hparsed, hplan⟩ := bind_ok.mp hplan
  cases hspec : parse_layout_spec decimals config.layout_source with
  | error error =>
    rw [hspec] at hparsed
    cases hparsed
  | ok node =>
    rw [hspec] at hparsed
    cases hparsed
    simp only at hplan
    split at hplan
    · cases hplan
    · rename_i layout hlayout
      split at hplan
      · cases hplan
      · cases hplan
        exact ⟨rfl, leavesWellFormed_prune (leavesWellFormed_of_parse hspec) hlayout⟩

theorem render_eq_iff (decimals : Decimals) {other : LayoutNode}
    (h : LeavesWellFormed node) (hother : LeavesWellFormed other) :
    node.render = other.render ↔ regroup node = regroup other := by
  constructor
  · intro hrender
    have hread : parse_layout_spec decimals node.render = .ok (regroup node) := parse_render h
    rw [hrender, parse_render hother, Except.ok.injEq] at hread
    exact hread.symm
  · intro hregroup
    rw [← (render_regroup node).1, hregroup, (render_regroup other).1]

/-- A rendered layout is read back as itself exactly when no branch has a right child of its own
kind; and those are the layouts that no other layout of that form is rendered like. -/
theorem layout_round_trip (decimals : Decimals) :
    (∀ (text : Text) (node : LayoutNode), parse_layout_spec decimals text = .ok node →
      (parse_layout_spec decimals node.render = .ok node ↔ LeftNested node) ∧
      ((∀ (other_text : Text) (other : LayoutNode),
          parse_layout_spec decimals other_text = .ok other → LeftNested other →
          other.render = node.render → other = node) ↔ LeftNested node)) ∧
    ∀ plan other : ProjectLayoutPlan, Planned decimals plan → Planned decimals other →
      (plan.signature = other.signature ↔ regroup plan.layout = regroup other.layout) ∧
      (LeftNested plan.layout → LeftNested other.layout → plan.signature = other.signature →
        plan.layout = other.layout) := by
  constructor
  · intro text node hparse
    have hleaves := leavesWellFormed_of_parse hparse
    have hread : parse_layout_spec decimals node.render = .ok (regroup node) := parse_render hleaves
    refine ⟨?_, ?_, ?_⟩
    · rw [hread, Except.ok.injEq]
      exact regroup_eq_self_iff node
    · intro hothers
      rw [← regroup_eq_self_iff]
      exact hothers node.render (regroup node) hread (leftNested_regroup node).1
        (render_regroup node).1
    · intro hnode other_text other hother hnested hrender
      have heq := (render_eq_iff decimals (leavesWellFormed_of_parse hother) hleaves).mp hrender
      rw [regroup_of_leftNested hnested, regroup_of_leftNested hnode] at heq
      exact heq
  · intro plan other hplan hother
    obtain ⟨hsignature, hleaves⟩ := signature_of_planned hplan
    obtain ⟨hother_signature, hother_leaves⟩ := signature_of_planned hother
    have hiff : plan.signature = other.signature ↔ regroup plan.layout = regroup other.layout := by
      rw [hsignature, hother_signature]
      exact render_eq_iff decimals hleaves hother_leaves
    refine ⟨hiff, ?_⟩
    intro hnested hother_nested heq
    have hregroup := hiff.mp heq
    rw [regroup_of_leftNested hnested, regroup_of_leftNested hother_nested] at hregroup
    exact hregroup

def asciiDecimals : Decimals where
  value c := if 48 ≤ c.val ∧ c.val ≤ 57 then some (c.val - 48) else none
  lt_ten := by
    intro c n h
    split at h
    · rename_i hdigit
      cases h
      omega
    · cases h
  ascii := fun c hlow hhigh => if_pos ⟨hlow, hhigh⟩

def namedLeaf (name : String) : LayoutNode :=
  .leaf
    { name := asciiText name
      provider := none
      worktree := false
      weight := 1
      percent := none }

theorem layout_round_trip_columns :
    parse_layout_spec asciiDecimals
      (LayoutNode.branch .horizontal (.branch .horizontal (namedLeaf "a") (namedLeaf "b"))
        (namedLeaf "c")).render =
      .ok (.branch .horizontal (.branch .horizontal (namedLeaf "a") (namedLeaf "b"))
        (namedLeaf "c")) :=
  (((layout_round_trip asciiDecimals).1 (asciiText "(a; b); c") _ (by decide +kernel)).1).mpr
    ⟨⟨trivial, trivial, fun h => by cases h⟩, trivial, fun h => by cases h⟩

/-- A group on the right is rendered without its parentheses, as the group on the left is. -/
theorem group_on_the_right :
    parse_layout_spec asciiDecimals (asciiText "a; (b; c)") =
        .ok (.branch .horizontal (namedLeaf "a")
          (.branch .horizontal (namedLeaf "b") (namedLeaf "c"))) ∧
      parse_layout_spec asciiDecimals (LayoutNode.branch .horizontal (namedLeaf "a")
          (.branch .horizontal (namedLeaf "b") (namedLeaf "c"))).render ≠
        .ok (.branch .horizontal (namedLeaf "a")
          (.branch .horizontal (namedLeaf "b") (namedLeaf "c"))) ∧
      parse_layout_spec asciiDecimals (asciiText "(a; b); c") =
        .ok (.branch .horizontal (.branch .horizontal (namedLeaf "a") (namedLeaf "b"))
          (namedLeaf "c")) ∧
      (LayoutNode.branch .horizontal (namedLeaf "a")
          (.branch .horizontal (namedLeaf "b") (namedLeaf "c"))).render =
        (LayoutNode.branch .horizontal (.branch .horizontal (namedLeaf "a") (namedLeaf "b"))
          (namedLeaf "c")).render := by
  decide +kernel

end ClaudeCodeBridge.Analysis.LayoutText
