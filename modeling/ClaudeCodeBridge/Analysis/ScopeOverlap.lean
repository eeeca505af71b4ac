import ClaudeCodeBridge.Model.ChangeScopes

/-!
# Scopes that do not overlap

A path that a scope allows begins with the static part of the scope (`static_allowed`), so that
patterns are kept apart.  Two scopes without a pattern that allow one path overlap, or one names a
file and the other the same file without its suffix (`Extends`), which only
`path_allowed_by_scope` takes for one.
-/

set_option autoImplicit false

namespace ClaudeCodeBridge.Analysis.Scopes

open Program
open Model.Scopes
open Model.Workgroup

variable {l r p path scope changed : Text}

theorem slash_free_parts {value part : Text} (h : part ∈ value.splitOn slash) : slash ∉ part := by
  induction value generalizing part with
  | nil =>
    rw [List.splitOn_nil, List.mem_singleton] at h
    simp [h]
  | cons c rest ih =>
    rw [List.splitOn_cons_eq_if_modifyHead] at h
    split at h
    · rcases List.mem_cons.mp h with rfl | hin
      · exact List.not_mem_nil
      · exact ih hin
    · rename_i hc
      cases hrest : rest.splitOn slash with
      | nil => exact absurd hrest (List.splitOn_ne_nil slash rest)
      | cons first parts =>
        rw [hrest] at h ih
        rcases List.mem_cons.mp h with rfl | hin
        · rw [List.mem_cons, not_or]
          exact ⟨fun heq => hc (by simp [heq]), ih List.mem_cons_self⟩
        · exact ih (List.mem_cons_of_mem _ hin)

theorem rstrip_safe (h : safe_relative_path l = .ok path) : rstrip_slash path = path := by
  simp only [safe_relative_path, bind_ok, pure_ok] at h
  obtain ⟨_, _, rfl⟩ := h
  generalize hlast : (path_parts l).getLastD [dot] = last
  have hname : last ≠ [] ∧ slash ∉ last := by
    rw [List.getLastD_eq_getLast?] at hlast
    cases hsome : (path_parts l).getLast? with
    | none =>
      rw [← hlast, hsome]
      decide
    | some part =>
      rw [hsome, Option.getD_some] at hlast
      obtain ⟨hin, hkept⟩ := List.mem_filter.mp (List.mem_of_getLast? hsome)
      simp only [decide_eq_true_eq] at hkept
      rw [← hlast]
      exact ⟨hkept.1, slash_free_parts hin⟩
  refine List.rdropWhile_eq_self_iff.mpr fun hne hslash => hname.2 ?_
  rw [decide_eq_true_iff, List.getLast_append_of_ne_nil _ hname.1] at hslash
  exact hslash ▸ List.getLast_mem hname.1

theorem split_name_append (name : Text) : (split_name name).1 ++ (split_name name).2 = name := by
  unfold split_name
  dsimp only
  split
  · rename_i h
    have hne : name.rdropWhile (· ≠ dot) ≠ [] := by
      intro hnil
      rw [hnil] at h
      exact h.1 rfl
    have hlast := List.rdropWhile_last_not (p := fun c : Fin 0x110000 => c ≠ dot) name hne
    rw [decide_eq_true_iff, not_not] at hlast
    have happend := List.rdropWhile_append_rtakeWhile (p := fun c : Fin 0x110000 => c ≠ dot)
      (l := name)
    rw [← List.dropLast_append_getLast hne, hlast, List.append_assoc] at happend
    exact happend
  · exact List.append_nil name

theorem without_suffix_append (path : Text) : without_suffix path ++ suffix path = path := by
  rw [without_suffix, suffix, List.append_assoc, split_name_append,
    List.rdropWhile_append_rtakeWhile]

theorem slash_free_suffix : slash ∉ suffix path := by
  intro hslash
  have hin : slash ∈ path.rtakeWhile (· ≠ slash) := by
    rw [← split_name_append (path.rtakeWhile _)]
    exact List.mem_append_right _ hslash
  simpa using List.mem_rtakeWhile_imp hin

/-- What a path with a suffix is inside of, so is the path without it. -/
theorem inside_without_suffix (h : path ++ [slash] <+: changed) :
    path ++ [slash] <+: without_suffix changed := by
  rw [← without_suffix_append changed] at h
  rcases List.prefix_or_prefix_of_prefix h (List.prefix_append _ _) with hin | ⟨rest, hrest⟩
  · exact hin
  · rw [← hrest] at h
    have hsuffix := (List.prefix_append_right_inj _).mp h
    by_cases hnil : rest = []
    · rw [← hrest, hnil, List.append_nil]
    · have hend := congrArg List.getLast? hrest
      rw [List.getLast?_append_of_ne_nil _ hnil, List.getLast?_concat] at hend
      exact absurd (hsuffix.subset (List.mem_of_getLast? hend)) slash_free_suffix

theorem glob_tokens_static (pattern : Text) (fuel : ℕ) (hfuel : pattern.length ≤ fuel) :
    ∃ rest, glob_tokens fuel pattern =
      ( scope_static_prefix pattern).map GlobToken.literal ++ rest := by
  induction pattern generalizing fuel with
  | nil => exact ⟨glob_tokens fuel [], rfl⟩
  | cons c pattern ih =>
    cases fuel with
    | zero => simp at hfuel
    | succ fuel =>
      unfold scope_static_prefix
      cases hc : is_marker c with
      | true => exact ⟨_, by rw [List.takeWhile_cons_of_neg (by simp [hc])]; rfl⟩
      | false =>
        obtain ⟨rest, hrest⟩ := ih fuel (Nat.le_of_succ_le_succ hfuel)
        simp only [is_marker, Bool.or_eq_false_iff, decide_eq_false_iff_not] at hc
        refine ⟨rest, ?_⟩
        rw [List.takeWhile_cons_of_pos (by simp [is_marker, hc]), glob_tokens, if_neg hc.1.1,
          if_neg hc.1.2, if_neg hc.2, hrest]
        rfl

theorem match_literals {word name : Text} {tokens : List GlobToken}
    (h : match_tokens (word.map GlobToken.literal ++ tokens) name = true) : word <+: name := by
  induction word generalizing name with
  | nil => exact List.nil_prefix
  | cons c word ih =>
    simp only [List.map_cons, List.cons_append, match_tokens, Bool.and_eq_true,
      decide_eq_true_eq] at h
    obtain ⟨tail, rfl⟩ := List.head?_eq_some_iff.mp h.1
    exact (List.prefix_cons_inj c).mpr (ih h.2)

/-- What a scope allows, by its text and its path. -/
inductive Allows (l scope changed : Text) : Prop
  | same (h : changed = scope)
  | pattern (hglob : scope_has_glob scope = true) (h : fnmatchcase changed scope = true)
  | suffixed (h : suffix changed ≠ []) (hscope : suffix scope = [])
      (hstem : without_suffix changed = scope)
  | inside (hdirectory : l.getLast? = some slash) (h : scope ++ [slash] <+: changed)

theorem allowed_by_iff (hl : safe_relative_path l = .ok scope) :
    allowed_by changed l = .ok true ↔ Allows l scope changed := by
  simp only [allowed_by, hl, bind, Except.bind, pure, Except.pure, rstrip_safe hl,
    Except.ok.injEq, Bool.or_eq_true, Bool.and_eq_true, decide_eq_true_eq,
    List.isPrefixOf_iff_prefix]
  constructor
  · rintro (((h | ⟨hglob, h⟩) | ⟨⟨h, hscope⟩, hstem⟩) | ⟨hdirectory, h⟩)
    · exact .same h
    · exact .pattern hglob h
    · exact .suffixed h hscope hstem
    · exact .inside hdirectory h
  · rintro (h | ⟨hglob, h⟩ | ⟨h, hscope, hstem⟩ | ⟨hdirectory, h⟩)
    · exact .inl (.inl (.inl h))
    · exact .inl (.inl (.inr ⟨hglob, h⟩))
    · exact .inl (.inr ⟨⟨h, hscope⟩, hstem⟩)
    · exact .inr ⟨hdirectory, h⟩

theorem static_allowed (h : Allows l scope changed) : scope_static_prefix scope <+: changed := by
  have hstart : scope_static_prefix scope <+: scope := List.takeWhile_prefix _
  cases h with
  | same h => exact h ▸ hstart
  | pattern hglob h =>
    obtain ⟨rest, hrest⟩ := glob_tokens_static scope scope.length le_rfl
    rw [fnmatchcase, hrest] at h
    exact match_literals h
  | suffixed h hscope hstem =>
    rw [← without_suffix_append changed, hstem]
    exact hstart.trans (List.prefix_append _ _)
  | inside hdirectory h => exact hstart.trans ((List.prefix_append _ _).trans h)

/-- The second path names a file, and the first the same file without its suffix. -/
def Extends (left_path right_path : Text) : Prop :=
  scope_has_glob right_path = false ∧ suffix right_path ≠ [] ∧ suffix left_path = [] ∧
    without_suffix right_path = left_path

/-- What `scopes_overlap` asks for, of scopes with these paths. -/
structure Apart (l r left_path right_path : Text) : Prop where
  ne : left_path ≠ right_path
  left : l.getLast? = some slash → ¬ left_path ++ [slash] <+: right_path
  right : r.getLast? = some slash → ¬ right_path ++ [slash] <+: left_path
  static : scope_has_glob left_path = true ∨ scope_has_glob right_path = true →
    ¬ scope_static_prefix left_path <+: scope_static_prefix right_path ∧
      ¬ scope_static_prefix right_path <+: scope_static_prefix left_path

variable {left_path right_path : Text}

theorem apart_of_overlap (hl : safe_relative_path l = .ok left_path)
    (hr : safe_relative_path r = .ok right_path) (h : scopes_overlap l r = .ok false) :
    Apart l r left_path right_path := by
  simp only [scopes_overlap, hl, hr, bind, Except.bind, pure, Except.pure, rstrip_safe hl,
    rstrip_safe hr, Except.ok.injEq, Bool.or_eq_false_iff, Bool.and_eq_false_iff,
    decide_eq_false_iff_not] at h
  obtain ⟨⟨⟨⟨⟨hne, hleft⟩, hright⟩, _⟩, _⟩, hglob⟩ := h
  refine ⟨hne, fun hl => ?_, fun hr => ?_, fun hsome => ?_⟩
  · rw [← List.isPrefixOf_iff_prefix, Bool.not_eq_true]
    exact hleft.resolve_left (not_not_intro hl)
  · rw [← List.isPrefixOf_iff_prefix, Bool.not_eq_true]
    exact hright.resolve_left (not_not_intro hr)
  · rw [← List.isPrefixOf_iff_prefix, ← List.isPrefixOf_iff_prefix, Bool.not_eq_true,
      Bool.not_eq_true]
    rcases hglob with ⟨hnone, hnone'⟩ | ⟨⟨_, hright⟩, hleft⟩
    · simp [hnone, hnone'] at hsome
    · exact ⟨hleft, hright⟩

/-- Two scopes that allow one path, and do not overlap. -/
theorem extends_of_common (h : Apart l r left_path right_path) (hl : Allows l left_path changed)
    (hr : Allows r right_path changed) :
    Extends left_path right_path ∨ Extends right_path left_path := by
  have hnone : scope_has_glob left_path = false ∧ scope_has_glob right_path = false := by
    by_contra hsome
    rw [not_and_or, Bool.not_eq_false, Bool.not_eq_false] at hsome
    obtain ⟨hleft, hright⟩ := h.static hsome
    exact (List.prefix_or_prefix_of_prefix (static_allowed hl) (static_allowed hr)).elim hleft
      hright
  cases hl with
  | pattern hsome => simp [hnone.1] at hsome
  | same hl =>
    cases hr with
    | pattern hsome => simp [hnone.2] at hsome
    | same hr => exact absurd (hl.symm.trans hr) h.ne
    | suffixed hs hscope hstem => exact .inr ⟨hnone.1, hl ▸ hs, hscope, hl ▸ hstem⟩
    | inside hdirectory hr => exact absurd (hl ▸ hr) (h.right hdirectory)
  | suffixed hs hscope hstem =>
    cases hr with
    | pattern hsome => simp [hnone.2] at hsome
    | same hr => exact .inl ⟨hnone.2, hr ▸ hs, hscope, hr ▸ hstem⟩
    | suffixed _ _ hstem' => exact absurd (hstem.symm.trans hstem') h.ne
    | inside hdirectory hr =>
      exact absurd (hstem ▸ inside_without_suffix hr) (h.right hdirectory)
  | inside hdirectory hl =>
    cases hr with
    | pattern hsome => simp [hnone.2] at hsome
    | same hr => exact absurd (hr ▸ hl) (h.left hdirectory)
    | suffixed _ _ hstem => exact absurd (hstem ▸ inside_without_suffix hl) (h.left hdirectory)
    | inside hdirectory' hr =>
      rcases List.prefix_or_prefix_of_prefix hl hr with hin | hin
      · rcases List.prefix_concat_iff.mp hin with hsame | hin
        · exact absurd (List.append_cancel_right hsame) h.ne
        · exact absurd hin (h.left hdirectory)
      · rcases List.prefix_concat_iff.mp hin with hsame | hin
        · exact absurd (List.append_cancel_right hsame).symm h.ne
        · exact absurd hin (h.right hdirectory')

/-- One scope names a file, and the other the same file without its suffix. -/
def SharesFile (l r : Scope) : Prop :=
  ∃ left_path right_path, safe_relative_path l = .ok left_path ∧
    safe_relative_path r = .ok right_path ∧
    (Extends left_path right_path ∨ Extends right_path left_path)

theorem allowed_mem {scopes : List Scope} (h : path_allowed_by_scope p scopes = .ok true) :
    ∃ changed, safe_relative_path p = .ok changed ∧
      ∃ l ∈ scopes, allowed_by changed l = .ok true := by
  obtain ⟨changed, hp, hany⟩ := bind_ok.mp h
  refine ⟨changed, hp, ?_⟩
  clear h
  induction scopes with
  | nil => simp [List.anyM, pure, Except.pure] at hany
  | cons l scopes ih =>
    obtain ⟨b, hl, hany⟩ := bind_ok.mp hany
    cases b with
    | true => exact ⟨l, List.mem_cons_self, hl⟩
    | false =>
      obtain ⟨l, hin, hl⟩ := ih hany
      exact ⟨l, List.mem_cons_of_mem _ hin, hl⟩

theorem allowed_of_mem {scopes : List Scope} (hsafe : ∀ l ∈ scopes, ∃ path,
    safe_relative_path l = .ok path) (hp : safe_relative_path p = .ok changed) (hin : l ∈ scopes)
    (hl : allowed_by changed l = .ok true) : path_allowed_by_scope p scopes = .ok true := by
  refine bind_ok.mpr ⟨changed, hp, ?_⟩
  induction scopes with
  | nil => exact absurd hin List.not_mem_nil
  | cons first scopes ih =>
    obtain ⟨path, hpath⟩ := hsafe first List.mem_cons_self
    obtain ⟨b, hb⟩ : ∃ b, allowed_by changed first = .ok b := ⟨_, by rw [allowed_by, hpath]; rfl⟩
    refine bind_ok.mpr ⟨b, hb, ?_⟩
    cases b with
    | true => rfl
    | false =>
      rcases List.mem_cons.mp hin with rfl | hin
      · rw [hl] at hb
        simp at hb
      · exact ih (fun l hl => hsafe l (List.mem_cons_of_mem _ hl)) hin

theorem overlap_safe {b : Bool} (h : scopes_overlap l r = .ok b) :
    (∃ path, safe_relative_path l = .ok path) ∧ ∃ path, safe_relative_path r = .ok path := by
  obtain ⟨left_path, hl, h⟩ := bind_ok.mp h
  obtain ⟨right_path, hr, _⟩ := bind_ok.mp h
  exact ⟨⟨_, hl⟩, _, hr⟩

theorem common_iff {left right : List Scope}
    (h : ∀ l ∈ left, ∀ r ∈ right, scopes_overlap l r = .ok false) :
    (∃ p, path_allowed_by_scope p left = .ok true ∧ path_allowed_by_scope p right = .ok true) ↔
      ∃ l ∈ left, ∃ r ∈ right, SharesFile l r := by
  constructor
  · rintro ⟨p, hleft, hright⟩
    obtain ⟨changed, hp, l, hin, hl⟩ := allowed_mem hleft
    obtain ⟨changed', hp', r, hin', hr⟩ := allowed_mem hright
    obtain rfl := Except.ok.inj (hp.symm.trans hp')
    obtain ⟨⟨left_path, hsl⟩, right_path, hsr⟩ := overlap_safe (h l hin r hin')
    exact ⟨l, hin, r, hin', left_path, right_path, hsl, hsr,
      extends_of_common (apart_of_overlap hsl hsr (h l hin r hin')) ((allowed_by_iff hsl).mp hl)
        ((allowed_by_iff hsr).mp hr)⟩
  · rintro ⟨l, hin, r, hin', left_path, right_path, hsl, hsr, hextends⟩
    have hsafe : ∀ l ∈ left, ∃ path, safe_relative_path l = .ok path :=
      fun l hin => (overlap_safe (h l hin r hin')).1
    have hsafe' : ∀ r ∈ right, ∃ path, safe_relative_path r = .ok path :=
      fun r hin' => (overlap_safe (h l hin r hin')).2
    rcases hextends with ⟨_, hsuffix, hscope, hstem⟩ | ⟨_, hsuffix, hscope, hstem⟩
    · exact ⟨r, allowed_of_mem hsafe hsr hin ((allowed_by_iff hsl).mpr (.suffixed hsuffix hscope
        hstem)), allowed_of_mem hsafe' hsr hin' ((allowed_by_iff hsr).mpr (.same rfl))⟩
    · exact ⟨l, allowed_of_mem hsafe hsl hin ((allowed_by_iff hsl).mpr (.same rfl)),
        allowed_of_mem hsafe' hsl hin' ((allowed_by_iff hsr).mpr (.suffixed hsuffix hscope hstem))⟩

/-- `scopes_overlap` as `_validate_parallel_scopes` uses it: what it raises refuses the bundle
too. -/
def overlapping (l r : Scope) : Bool := scopes_overlap l r ≠ .ok false

/-- **Scopes that do not overlap allow a path together** exactly where one is the other without
its suffix, and so do two parallel nodes of a bundle.

SOURCE: lib/cli/services/loop_execution_scope.py:109-163,
lib/cli/services/loop_orchestration_bundle.py:654-685 -/
theorem disjoint_scopes (l r : Scope) (nodes : List BundleNode) :
    (scopes_overlap l r = .ok false →
      ((∃ p, path_allowed_by_scope p [l] = .ok true ∧ path_allowed_by_scope p [r] = .ok true) ↔
        SharesFile l r)) ∧
    (validate_parallel_scopes overlapping nodes = .ok () →
      nodes.Pairwise fun left right => independent nodes left.node_id right.node_id →
        ((∃ p, path_allowed_by_scope p left.allowed_paths = .ok true ∧
            path_allowed_by_scope p right.allowed_paths = .ok true) ↔
          ∃ l ∈ left.allowed_paths, ∃ r ∈ right.allowed_paths, SharesFile l r)) := by
  constructor
  · intro h
    have hiff := @common_iff [l] [r] (by simpa using h)
    simpa using hiff
  · intro h
    rw [validate_parallel_scopes, refuseIf_ok, not_not] at h
    refine h.imp fun hscopes hindependent => common_iff fun l hin r hin' => ?_
    simpa [overlapping] using hscopes hindependent l hin r hin'

def scopedNode (node_id : NodeId) (allowed_paths : List Scope) : BundleNode :=
  { node_id := node_id
    worker_profile := asciiText "coder"
    reviewer_profile := asciiText "code_reviewer"
    depends_on := []
    allowed_paths := allowed_paths
    integration_order := 1 }

def scopedNodes : List BundleNode :=
  [scopedNode ⟨asciiText "sources", by decide⟩ [asciiText "src/"],
    scopedNode ⟨asciiText "library", by decide⟩ [asciiText "lib/*.py"]]

theorem scopedNodes_independent : ∀ left ∈ scopedNodes, ∀ right,
    reaches (dependencies scopedNodes) left.node_id right = false := by
  intro left hleft right
  have hleaf : ∀ node ∈ scopedNodes, (dependencies scopedNodes).of node.node_id = [] := by decide
  unfold reaches
  rw [hleaf left hleft, reachesFrom]

theorem disjoint_scopes_together :
    (¬ ∃ p, path_allowed_by_scope p [asciiText "src/"] = .ok true ∧
      path_allowed_by_scope p [asciiText "lib/*.py"] = .ok true) ∧
    ∃ p, path_allowed_by_scope p [asciiText "src/a"] = .ok true ∧
      path_allowed_by_scope p [asciiText "src/a.py"] = .ok true := by
  constructor
  · have hvalid : validate_parallel_scopes overlapping scopedNodes = .ok () := by
      rw [validate_parallel_scopes, refuseIf_ok, not_not]
      exact List.pairwise_pair.mpr fun _ => by decide
    have hiff := List.pairwise_pair.mp ((disjoint_scopes [] [] scopedNodes).2 hvalid)
      ⟨scopedNodes_independent _ (by decide) _, scopedNodes_independent _ (by decide) _⟩
    intro h
    obtain ⟨l, hl, r, hr, _, _, hleft, hright, hextends⟩ := hiff.mp h
    obtain rfl := List.mem_singleton.mp hl
    obtain rfl := List.mem_singleton.mp hr
    cases hleft
    cases hright
    obtain ⟨hglob, _⟩ | ⟨_, hsuffix, _⟩ := hextends
    · exact absurd hglob (by decide)
    · exact absurd hsuffix (by decide)
  · refine ((disjoint_scopes _ _ []).1 (by decide)).mpr
      ⟨asciiText "src/a", asciiText "src/a.py", ?_⟩
    exact ⟨by decide, by decide, .inl (by unfold Extends; decide)⟩

/-- The scopes are accepted and do not overlap, and both allow the file that the second names.

SOURCE: lib/cli/services/loop_execution_scope.py:119-120 -/
theorem suffixed_file_shared :
    ∃ l r p, normalize_scope_paths [l, r] = .ok [l, r] ∧ scopes_overlap l r = .ok false ∧
      path_allowed_by_scope p [l] = .ok true ∧ path_allowed_by_scope p [r] = .ok true :=
  ⟨asciiText "src/a", asciiText "src/a.py", asciiText "src/a.py", by decide⟩

end ClaudeCodeBridge.Analysis.Scopes
