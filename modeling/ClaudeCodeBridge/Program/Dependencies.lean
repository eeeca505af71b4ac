import ClaudeCodeBridge.Program.Outcomes
import Mathlib.Data.List.Sort

/-!
# Dependencies

A finite table of what each item depends on, and the walk over it that finds whether one item
leads to another: the items still to be looked at, the last found first, and those seen.  It
finds exactly the transitive closure (`reaches_iff`).  A depth-first visit to all items puts each
behind those that it depends on, unless one leads to itself (`visit_all_iff`).  `combinations` are
the choices of a given number of items, in their order, and `widest` is the first largest choice
of items that fit together two by two (`length_le_widest`).
-/

set_option autoImplicit false

namespace ClaudeCodeBridge.Program

variable {α : Type}

/-- What items depend on. -/
abbrev Dependencies (α : Type) := List (α × List α)

section Walk

variable [DecidableEq α] (d : Dependencies α)

/-- What an item depends on; nothing, when it is not known. -/
def Dependencies.of (a : α) : List α :=
  match d.find? fun entry => entry.1 = a with
  | none => []
  | some entry => entry.2

/-- One item depends on another. -/
def DependsOn (a b : α) : Prop := b ∈ d.of a

/-- The known items that are not yet seen. -/
def Dependencies.unseen (seen : List α) : List α :=
  (d.map Prod.fst).filter fun a => a ∉ seen

theorem known_of_mem_of {a b : α} (h : b ∈ d.of a) : a ∈ d.map Prod.fst := by
  unfold Dependencies.of at h
  cases hfind : d.find? fun entry => entry.1 = a with
  | none =>
    rw [hfind] at h
    exact absurd h List.not_mem_nil
  | some entry =>
    have hentry : entry.1 = a := by simpa using List.find?_some hfind
    rw [← hentry]
    exact List.mem_map_of_mem (List.mem_of_find?_eq_some hfind)

theorem of_eq_of_mem (hdistinct : (d.map Prod.fst).Nodup) {a : α} {bs : List α}
    (h : (a, bs) ∈ d) : d.of a = bs := by
  unfold Dependencies.of
  cases hfind : d.find? fun entry => entry.1 = a with
  | none => exact absurd (List.find?_eq_none.mp hfind (a, bs) h) (by simp)
  | some entry =>
    have hentry : entry.1 = a := by simpa using List.find?_some hfind
    have hsame : entry = (a, bs) :=
      List.inj_on_of_nodup_map hdistinct (List.mem_of_find?_eq_some hfind) h hentry
    rw [hsame]

theorem unseen_cons (seen : List α) (a : α) :
    d.unseen (a :: seen) = (d.unseen seen).filter fun b => b ≠ a := by
  unfold Dependencies.unseen
  rw [List.filter_filter]
  apply List.filter_congr
  intro b _
  simp

theorem unseen_cons_le (seen : List α) (a : α) :
    (d.unseen (a :: seen)).length ≤ (d.unseen seen).length := by
  rw [unseen_cons]
  exact List.length_filter_le _ _

theorem unseen_cons_lt {seen : List α} {a : α} (hknown : a ∈ d.map Prod.fst)
    (hseen : a ∉ seen) : (d.unseen (a :: seen)).length < (d.unseen seen).length := by
  rw [unseen_cons, List.length_filter_lt_length_iff_exists]
  have hmem : a ∈ d.unseen seen := by
    unfold Dependencies.unseen
    rw [List.mem_filter]
    exact ⟨hknown, by simpa using hseen⟩
  exact ⟨a, hmem, by simp⟩

/-- The walk from the items still to be looked at. -/
def reachesFrom (target : α) (pending seen : List α) : Bool :=
  match pending with
  | [] => false
  | current :: pending =>
    if current = target then true
    else if current ∈ seen then reachesFrom target pending seen
    else reachesFrom target (d.of current ++ pending) (current :: seen)
termination_by ((d.unseen seen).length, pending.length)
decreasing_by
  · exact Prod.Lex.right _ (by simp)
  · rename_i hseen
    by_cases hknown : current ∈ d.map Prod.fst
    · exact Prod.Lex.left _ _ (unseen_cons_lt d hknown hseen)
    · have hof : d.of current = [] := by
        refine List.eq_nil_iff_forall_not_mem.mpr ?_
        intro b hb
        exact hknown (known_of_mem_of d hb)
      rw [hof, List.nil_append]
      rcases Nat.lt_or_eq_of_le (unseen_cons_le d seen current) with hlt | heq
      · exact Prod.Lex.left _ _ hlt
      · rw [heq]
        exact Prod.Lex.right _ (by simp)

/-- Whether the start leads to the target. -/
def reaches (start target : α) : Bool := reachesFrom d target (d.of start) []

open Relation in
theorem reachesFrom_sound {target : α} {pending seen : List α}
    (h : reachesFrom d target pending seen = true) :
    ∃ a ∈ pending, ReflTransGen (DependsOn d) a target := by
  fun_induction reachesFrom d target pending seen with
  | case1 seen => exact absurd h Bool.false_ne_true
  | case2 seen pending => exact ⟨target, List.mem_cons_self, .refl⟩
  | case3 seen current pending hne hseen ih =>
    obtain ⟨a, ha, hpath⟩ := ih h
    exact ⟨a, List.mem_cons_of_mem _ ha, hpath⟩
  | case4 seen current pending hne hseen ih =>
    obtain ⟨a, ha, hpath⟩ := ih h
    rcases List.mem_append.mp ha with ha | ha
    · exact ⟨current, List.mem_cons_self, .head ha hpath⟩
    · exact ⟨a, List.mem_cons_of_mem _ ha, hpath⟩

/-- What has been seen is not the target, and leads to what has been seen or is pending. -/
def Walked (target : α) (pending seen : List α) : Prop :=
  ∀ a ∈ seen, a ≠ target ∧ ∀ b, DependsOn d a b → b ∈ seen ∨ b ∈ pending

open Relation in
theorem reachesFrom_complete {target : α} {pending seen : List α} {a : α}
    (hwalked : Walked d target pending seen) (ha : a ∈ seen ∨ a ∈ pending)
    (hpath : ReflTransGen (DependsOn d) a target) : reachesFrom d target pending seen = true := by
  fun_induction reachesFrom d target pending seen with
  | case1 seen =>
    have hclosed : ∀ b, ReflTransGen (DependsOn d) a b → b ∈ seen := by
      intro b hb
      induction hb with
      | refl => simpa using ha
      | tail _ hstep ih => simpa using (hwalked _ ih).2 _ hstep
    exact absurd rfl (hwalked target (hclosed target hpath)).1
  | case2 seen pending => rfl
  | case3 seen current pending hne hseen ih =>
    apply ih
    · intro b hb
      refine ⟨(hwalked b hb).1, ?_⟩
      intro c hc
      rcases (hwalked b hb).2 c hc with hc | hc
      · exact Or.inl hc
      · rcases List.mem_cons.mp hc with rfl | hc
        · exact Or.inl hseen
        · exact Or.inr hc
    · rcases ha with ha | ha
      · exact Or.inl ha
      · rcases List.mem_cons.mp ha with rfl | ha
        · exact Or.inl hseen
        · exact Or.inr ha
  | case4 seen current pending hne hseen ih =>
    apply ih
    · intro b hb
      rcases List.mem_cons.mp hb with rfl | hb
      · refine ⟨hne, ?_⟩
        intro c hc
        exact Or.inr (List.mem_append_left _ hc)
      · refine ⟨(hwalked b hb).1, ?_⟩
        intro c hc
        rcases (hwalked b hb).2 c hc with hc | hc
        · exact Or.inl (List.mem_cons_of_mem _ hc)
        · rcases List.mem_cons.mp hc with rfl | hc
          · exact Or.inl List.mem_cons_self
          · exact Or.inr (List.mem_append_right _ hc)
    · rcases ha with ha | ha
      · exact Or.inl (List.mem_cons_of_mem _ ha)
      · rcases List.mem_cons.mp ha with rfl | ha
        · exact Or.inl List.mem_cons_self
        · exact Or.inr (List.mem_append_right _ ha)

theorem reaches_iff {start target : α} :
    reaches d start target = true ↔ Relation.TransGen (DependsOn d) start target := by
  rw [Relation.TransGen.head'_iff]
  constructor
  · intro h
    exact reachesFrom_sound d h
  · rintro ⟨a, ha, hpath⟩
    apply reachesFrom_complete d ?_ (Or.inr ha) hpath
    intro b hb
    exact absurd hb List.not_mem_nil

/-- Items that do not lead to one another. -/
def Unordered (a b : α) : Prop :=
  ¬ Relation.TransGen (DependsOn d) a b ∧ ¬ Relation.TransGen (DependsOn d) b a

theorem unordered_iff {a b : α} :
    Unordered d a b ↔ reaches d a b = false ∧ reaches d b a = false := by
  unfold Unordered
  rw [← reaches_iff, ← reaches_iff, Bool.not_eq_true, Bool.not_eq_true]

/-- A visit to an item after those that it depends on: the items visited, or one that is met
while it is being visited. -/
def visit (visiting visited : List α) (a : α) : Except α (List α) :=
  if a ∈ visiting then .error a
  else if a ∈ visited then .ok visited
  else do
    let visited ← (d.of a).attach.foldlM
      (fun visited b => visit (a :: visiting) visited b.val) visited
    return a :: visited
termination_by (d.unseen visiting).length
decreasing_by
  rename_i hvisiting _
  exact unseen_cons_lt d (known_of_mem_of d b.property) hvisiting

theorem visit_visited {visiting visited : List α} {a : α}
    (hof : ∀ b ∈ d.of a, b ∈ visited ∧ b ∉ a :: visiting) (hvisiting : a ∉ visiting)
    (hvisited : a ∉ visited) : visit d visiting visited a = .ok (a :: visited) := by
  have hdone : ∀ bs : List { b // b ∈ d.of a }, bs.foldlM
      (fun visited b => visit d (a :: visiting) visited b.val) visited = .ok visited := by
    intro bs
    induction bs with
    | nil => rfl
    | cons b bs ih =>
      obtain ⟨hmem, hnot⟩ := hof b.val b.property
      rw [List.foldlM_cons, visit, if_neg hnot, if_pos hmem]
      exact ih
  rw [visit, if_neg hvisiting, if_neg hvisited, hdone]
  rfl

/-- Each item once, before those that it depends on. -/
def Sequenced : List α → Prop
  | [] => True
  | a :: rest => a ∉ rest ∧ (∀ b ∈ d.of a, b ∈ rest) ∧ Sequenced rest

open Relation

variable {d} {visiting visited after items : List α} {a b c : α}

theorem Sequenced.reached (h : Sequenced d visited) (ha : a ∈ visited)
    (hab : ReflTransGen (DependsOn d) a b) : b ∈ visited := by
  induction hab with
  | refl => exact ha
  | tail _ hstep ih =>
    clear ha
    induction visited with
    | nil => exact absurd ih List.not_mem_nil
    | cons first rest ihrest =>
      rcases List.mem_cons.mp ih with rfl | hmem
      · exact List.mem_cons_of_mem _ (h.2.1 _ hstep)
      · exact List.mem_cons_of_mem _ (ihrest h.2.2 hmem)

theorem Sequenced.acyclic (h : Sequenced d visited) (ha : a ∈ visited) :
    ¬ TransGen (DependsOn d) a a := by
  induction visited with
  | nil => exact absurd ha List.not_mem_nil
  | cons first rest ih =>
    rcases List.mem_cons.mp ha with rfl | hmem
    · intro hcycle
      obtain ⟨b, hstep, hback⟩ := TransGen.head'_iff.mp hcycle
      exact h.1 (h.2.2.reached (h.2.1 b hstep) hback)
    · exact ih h.2.2 hmem

/-- Where an item lacks a property, one lacks it whose dependencies all have it. -/
theorem Sequenced.exists_first {p : α → Prop} (h : Sequenced d visited) (ha : a ∈ visited)
    (hp : ¬ p a) : ∃ b, ¬ p b ∧ ∀ c ∈ d.of b, p c := by
  induction visited generalizing a with
  | nil => exact absurd ha List.not_mem_nil
  | cons first rest ih =>
    by_cases hrest : ∃ x ∈ rest, ¬ p x
    · obtain ⟨x, hx, hpx⟩ := hrest
      exact ih h.2.2 hx hpx
    · rcases List.mem_cons.mp ha with rfl | hmem
      · exact ⟨a, hp, fun c hc => by_contra fun hpc => hrest ⟨c, h.2.1 c hc, hpc⟩⟩
      · exact absurd ⟨a, hmem, hp⟩ hrest

variable (d) in
/-- A visit goes on with a sequence, and adds nothing that is being visited. -/
def Visits (visiting visited after : List α) : Prop :=
  Sequenced d visited → Sequenced d after ∧ (∀ b ∈ visited, b ∈ after) ∧
    ∀ b ∈ after, b ∈ visited ∨ b ∉ visiting

theorem visits_foldlM {β : Type} {step : List α → β → Except α (List α)} (key : β → α)
    (hstep : ∀ visited b after, step visited b = .ok after →
      Visits d visiting visited after ∧ key b ∈ after) {bs : List β}
    (h : bs.foldlM step visited = .ok after) :
    Visits d visiting visited after ∧ (Sequenced d visited → ∀ b ∈ bs, key b ∈ after) := by
  induction bs generalizing visited with
  | nil =>
    cases h
    exact ⟨fun hs => ⟨hs, fun _ => id, fun _ => Or.inl⟩, by simp⟩
  | cons b bs ih =>
    rw [List.foldlM_cons, bind_ok] at h
    obtain ⟨middle, hb, hbs⟩ := h
    obtain ⟨hvisits, hkey⟩ := hstep visited b middle hb
    obtain ⟨hrest, hkeys⟩ := ih hbs
    refine ⟨fun hs => ?_, fun hs => ?_⟩
    · obtain ⟨hmiddle, hsub, hnew⟩ := hvisits hs
      obtain ⟨hafter, hsub', hnew'⟩ := hrest hmiddle
      exact ⟨hafter, fun c hc => hsub' c (hsub c hc), fun c hc => (hnew' c hc).elim (hnew c) Or.inr⟩
    · have hmiddle := (hvisits hs).1
      exact List.forall_mem_cons.mpr ⟨(hrest hmiddle).2.1 _ hkey, hkeys hmiddle⟩

theorem visits_of_visit (h : visit d visiting visited a = .ok after) :
    Visits d visiting visited after ∧ a ∈ after := by
  fun_induction visit d visiting visited a generalizing after with
  | case1 => cases h
  | case2 visiting visited a _ hvisited =>
    cases h
    exact ⟨fun hs => ⟨hs, fun _ => id, fun _ => Or.inl⟩, hvisited⟩
  | case3 visiting visited a hvisiting hvisited ih =>
    obtain ⟨middle, hmiddle, hafter⟩ := bind_ok.mp h
    cases hafter
    obtain ⟨hvisits, hkeys⟩ := visits_foldlM Subtype.val
      (fun visited b after => ih visited b) hmiddle
    refine ⟨fun hs => ?_, List.mem_cons_self⟩
    obtain ⟨hs', hsub, hnew⟩ := hvisits hs
    refine ⟨⟨?_, fun b hb => hkeys hs ⟨b, hb⟩ (List.mem_attach _ _), hs'⟩,
      fun b hb => List.mem_cons_of_mem _ (hsub b hb), ?_⟩
    · intro ha
      exact (hnew a ha).elim hvisited fun hne => hne List.mem_cons_self
    · intro b hb
      rcases List.mem_cons.mp hb with rfl | hb
      · exact Or.inr hvisiting
      · exact (hnew b hb).imp id fun hne hb => hne (List.mem_cons_of_mem _ hb)

theorem sequenced_of_visits (h : items.foldlM (visit d []) [] = .ok after) :
    Sequenced d after ∧ ∀ a ∈ items, a ∈ after := by
  obtain ⟨hvisits, hkeys⟩ := visits_foldlM id (fun _ _ _ => visits_of_visit) h
  exact ⟨(hvisits trivial).1, hkeys trivial⟩

theorem error_of_foldlM {σ β ε : Type} {step : σ → β → Except ε σ} {bs : List β} {s : σ} {e : ε}
    (h : bs.foldlM step s = .error e) : ∃ s, ∃ b ∈ bs, step s b = .error e := by
  induction bs generalizing s with
  | nil => cases h
  | cons b bs ih =>
    rw [List.foldlM_cons] at h
    cases hb : step s b with
    | error refusal =>
      rw [hb] at h
      cases h
      exact ⟨s, b, List.mem_cons_self, hb⟩
    | ok next =>
      rw [hb] at h
      obtain ⟨s, c, hc, herror⟩ := ih h
      exact ⟨s, c, List.mem_cons_of_mem _ hc, herror⟩

theorem cycle_of_visit (h : visit d visiting visited a = .error c)
    (hpath : ∀ b ∈ visiting, TransGen (DependsOn d) b a) : TransGen (DependsOn d) c c := by
  fun_induction visit d visiting visited a with
  | case1 visiting visited a hvisiting =>
    cases h
    exact hpath _ hvisiting
  | case2 => cases h
  | case3 visiting visited a hvisiting hvisited ih =>
    cases hfold : (d.of a).attach.foldlM
        (fun visited b => visit d (a :: visiting) visited b.val) visited with
    | ok middle =>
      rw [hfold] at h
      cases h
    | error found =>
      rw [hfold] at h
      cases h
      obtain ⟨visited, b, _, hb⟩ := error_of_foldlM hfold
      exact ih visited b hb (List.forall_mem_cons.mpr
        ⟨.single b.property, fun x hx => (hpath x hx).tail b.property⟩)

theorem visit_all_iff (d : Dependencies α) (hknown : ∀ a, d.of a ≠ [] → a ∈ items) :
    (∃ after, items.foldlM (visit d []) [] = .ok after) ↔ ∀ a, ¬ TransGen (DependsOn d) a a := by
  constructor
  · rintro ⟨after, h⟩ a hcycle
    obtain ⟨hsequenced, hitems⟩ := sequenced_of_visits h
    obtain ⟨b, hstep, _⟩ := TransGen.head'_iff.mp hcycle
    exact hsequenced.acyclic (hitems a (hknown a (List.ne_nil_of_mem hstep))) hcycle
  · intro hacyclic
    cases h : items.foldlM (visit d []) [] with
    | ok after => exact ⟨after, rfl⟩
    | error c =>
      obtain ⟨_, a, _, ha⟩ := error_of_foldlM h
      exact absurd (cycle_of_visit ha fun b hb => absurd hb List.not_mem_nil) (hacyclic c)

end Walk

/-- The choices of `n` items, in the order of the items. -/
def combinations : ℕ → List α → List (List α)
  | 0, _ => [[]]
  | _ + 1, [] => []
  | n + 1, a :: rest => (combinations n rest).map (a :: ·) ++ combinations (n + 1) rest

theorem mem_combinations {n : ℕ} {items choice : List α} :
    choice ∈ combinations n items ↔ choice.Sublist items ∧ choice.length = n := by
  induction items generalizing n choice with
  | nil =>
    cases n with
    | zero => simp [combinations]
    | succ n =>
      simp only [combinations, List.not_mem_nil, List.sublist_nil, false_iff, not_and]
      rintro rfl
      simp
  | cons a rest ih =>
    cases n with
    | zero =>
      simp only [combinations, List.mem_singleton, List.length_eq_zero_iff]
      constructor
      · rintro rfl
        exact ⟨List.nil_sublist _, rfl⟩
      · exact And.right
    | succ n =>
      simp only [combinations, List.mem_append, List.mem_map, ih, List.sublist_cons_iff]
      constructor
      · rintro (⟨others, ⟨hsub, hlength⟩, rfl⟩ | ⟨hsub, hlength⟩)
        · exact ⟨Or.inr ⟨others, rfl, hsub⟩, by simp [hlength]⟩
        · exact ⟨Or.inl hsub, hlength⟩
      · rintro ⟨hsub | ⟨others, rfl, hsub⟩, hlength⟩
        · exact Or.inr ⟨hsub, hlength⟩
        · exact Or.inl ⟨others, ⟨hsub, by simpa using hlength⟩, rfl⟩

/-- The first largest choice of items, of at most `n` and at least one, that passes. -/
def widestUpTo (fits : List α → Bool) (items : List α) : ℕ → List α
  | 0 => []
  | n + 1 =>
    match (combinations (n + 1) items).find? fits with
    | some choice => choice
    | none => widestUpTo fits items n

def widest (fits : List α → Bool) (items : List α) : List α :=
  widestUpTo fits items items.length

theorem length_le_widestUpTo {fits : List α → Bool} {items choice : List α} {n : ℕ}
    (hsub : choice.Sublist items) (hfits : fits choice = true) (hlength : choice.length ≤ n) :
    choice.length ≤ (widestUpTo fits items n).length := by
  induction n with
  | zero => omega
  | succ n ih =>
    unfold widestUpTo
    cases hfind : (combinations (n + 1) items).find? fits with
    | some found =>
      obtain ⟨_, hfound⟩ := mem_combinations.mp (List.mem_of_find?_eq_some hfind)
      dsimp only
      omega
    | none =>
      dsimp only
      apply ih
      have hne : choice.length ≠ n + 1 := by
        intro heq
        have hnone := List.find?_eq_none.mp hfind choice (mem_combinations.mpr ⟨hsub, heq⟩)
        exact hnone hfits
      omega

theorem length_le_widest {fits : List α → Bool} {items choice : List α}
    (hsub : choice.Sublist items) (hfits : fits choice = true) :
    choice.length ≤ (widest fits items).length :=
  length_le_widestUpTo hsub hfits hsub.length_le

end ClaudeCodeBridge.Program
