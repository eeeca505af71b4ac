import Mathlib.Data.List.Nodup
import Mathlib.Data.List.Perm.Subperm
import Mathlib.Order.WellFounded

/-!
# Walks along edges

`next k` is the edge that leads on from the place `k`, if there is one, and `target e` the
place where the edge `e` leads.  `Walk next target k chain` says that a walk from `k` goes
along `chain` and ends at a place that no edge leads on from.  Where every edge leads to a
smaller place, each place has one walk, and it visits no place twice.
-/

set_option autoImplicit false

namespace ClaudeCodeBridge.Program

variable {κ ρ τ : Type}

/-- The walk from a place, to its end. -/
inductive Walk (next : κ → Option ρ) (target : ρ → κ) : κ → List ρ → Prop
  | stop (k : κ) (h : next k = none) : Walk next target k []
  | go (k : κ) (e : ρ) (rest : List ρ) (h : next k = some e)
      (hrest : Walk next target (target e) rest) : Walk next target k (e :: rest)

/-- The places of a walk from `k`. -/
def visited (target : ρ → κ) (k : κ) (chain : List ρ) : List κ :=
  k :: chain.map target

section Walk

variable {next : κ → Option ρ} {target : ρ → κ}

theorem Walk.unique {k : κ} {chain other : List ρ} (h : Walk next target k chain)
    (hother : Walk next target k other) : chain = other := by
  induction h generalizing other with
  | stop k hstop =>
    cases hother with
    | stop => rfl
    | go _ e rest hgo => exact absurd (hstop.symm.trans hgo) (Option.some_ne_none e).symm
  | go k e rest hgo hrest ih =>
    cases hother with
    | stop _ hstop => exact absurd (hgo.symm.trans hstop) (Option.some_ne_none e)
    | go _ f others hgo' hothers =>
      have hsame : e = f := Option.some.inj (hgo.symm.trans hgo')
      subst hsame
      rw [ih hothers]

theorem Walk.exists_next {k : κ} {chain : List ρ} (h : Walk next target k chain) :
    ∀ e ∈ chain, ∃ p ∈ visited target k chain, next p = some e := by
  induction h with
  | stop k hstop => simp
  | go k e rest hgo hrest ih =>
    intro f hf
    rcases List.mem_cons.mp hf with rfl | hf
    · exact ⟨k, List.mem_cons_self, hgo⟩
    · obtain ⟨p, hp, hnext⟩ := ih f hf
      exact ⟨p, List.mem_cons_of_mem k hp, hnext⟩

theorem Walk.congr {other : κ → Option ρ} {P : κ → Prop}
    (hP : ∀ k e, P k → next k = some e → P (target e)) (hother : ∀ k, P k → other k = next k)
    {k : κ} {chain : List ρ} (h : Walk next target k chain) (hk : P k) :
    Walk other target k chain := by
  induction h with
  | stop k hstop => exact .stop k ((hother k hk).trans hstop)
  | go k e rest hgo hrest ih => exact .go k e rest ((hother k hk).trans hgo) (ih (hP k e hk hgo))

theorem Walk.map {other : κ → Option ρ} (f : ρ → τ) (place : τ → κ)
    (htarget : ∀ e, place (f e) = target e) (h : ∀ k, (other k).map f = (next k).map f) {k : κ}
    {chain : List ρ} (hwalk : Walk next target k chain) :
    ∃ others, Walk other target k others ∧ others.map f = chain.map f := by
  induction hwalk with
  | stop k hstop =>
    refine ⟨[], .stop k ?_, rfl⟩
    have hk := h k
    rw [hstop, Option.map_none, Option.map_eq_none_iff] at hk
    exact hk
  | go k e rest hgo hrest ih =>
    obtain ⟨others, hothers, hmap⟩ := ih
    have hk := h k
    rw [hgo, Option.map_some, Option.map_eq_some_iff] at hk
    obtain ⟨d, hd, hde⟩ := hk
    have hsame : target d = target e := by rw [← htarget, ← htarget, hde]
    refine ⟨d :: others, .go k d others hd (hsame ▸ hothers), ?_⟩
    rw [List.map_cons, List.map_cons, hde, hmap]

section Descending

variable [Preorder κ] (hdown : ∀ k e, next k = some e → target e < k)
include hdown

theorem exists_walk [WellFoundedLT κ] (k : κ) : ∃ chain, Walk next target k chain := by
  induction k using WellFoundedLT.induction with
  | _ k ih =>
    cases hk : next k with
    | none => exact ⟨[], .stop k hk⟩
    | some e =>
      obtain ⟨rest, hrest⟩ := ih (target e) (hdown k e hk)
      exact ⟨e :: rest, .go k e rest hk hrest⟩

theorem Walk.descending {k : κ} {chain : List ρ} (h : Walk next target k chain) :
    (visited target k chain).Pairwise fun a b => b < a := by
  induction h with
  | stop k hstop => exact List.pairwise_singleton _ k
  | go k e rest hgo hrest ih =>
    refine List.pairwise_cons.mpr ⟨fun b hb => ?_, ih⟩
    have hlt := hdown k e hgo
    rcases List.mem_cons.mp hb with rfl | hb
    · exact hlt
    · exact ((List.pairwise_cons.mp ih).1 b hb).trans hlt

theorem Walk.nodup {k : κ} {chain : List ρ} (h : Walk next target k chain) :
    (visited target k chain).Nodup :=
  (h.descending hdown).imp fun hlt => hlt.ne'

theorem Walk.length_le {edges : List ρ} (hedges : ∀ k e, next k = some e → e ∈ edges) {k : κ}
    {chain : List ρ} (h : Walk next target k chain) : chain.length ≤ edges.length := by
  have hnodup : chain.Nodup := List.Nodup.of_map target (h.nodup hdown).of_cons
  refine (List.subperm_of_subset hnodup fun e he => ?_).length_le
  obtain ⟨p, _, hp⟩ := h.exists_next e he
  exact hedges p e hp

end Descending

/-- The walk with a fuel, which ends at a place already seen. -/
def walk [DecidableEq κ] (next : κ → Option ρ) (target : ρ → κ) : ℕ → List κ → κ → List ρ
  | 0, _, _ => []
  | fuel + 1, seen, k =>
    if k ∈ seen then []
    else
      match next k with
      | none => []
      | some e => e :: walk next target fuel (k :: seen) (target e)

theorem Walk.walk_eq [DecidableEq κ] {k : κ} {chain : List ρ} (h : Walk next target k chain)
    (hnodup : (visited target k chain).Nodup) {fuel : ℕ} (hfuel : chain.length < fuel)
    (seen : List κ) (hseen : ∀ p ∈ visited target k chain, p ∉ seen) :
    walk next target fuel seen k = chain := by
  induction h generalizing fuel seen with
  | stop k hstop =>
    obtain ⟨fuel, rfl⟩ := Nat.exists_eq_add_of_lt hfuel
    simp [walk, hstop]
  | go k e rest hgo hrest ih =>
    obtain ⟨hk, hnodup⟩ := List.nodup_cons.mp hnodup
    cases fuel with
    | zero => omega
    | succ fuel =>
      have hrec : walk next target fuel (k :: seen) (target e) = rest := by
        refine ih hnodup (by simpa using hfuel) (k :: seen) fun p hp => ?_
        rintro hmem
        rcases List.mem_cons.mp hmem with rfl | hmem
        · exact hk hp
        · exact hseen p (List.mem_cons_of_mem k hp) hmem
      simp [walk, hseen k List.mem_cons_self, hgo, hrec]

end Walk

end ClaudeCodeBridge.Program
