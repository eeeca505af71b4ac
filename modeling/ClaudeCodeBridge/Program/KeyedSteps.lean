import Mathlib.Data.List.Nodup

/-!
# Steps on the values of a map

A step that may fail is on one key if it reads and writes the value of that key only
(`OnKey`).  Steps on one key run on its value alone (`foldlM_onKey`), and blocks of steps on
distinct keys do not meet (`foldlM_blocks`).
-/

set_option autoImplicit false

namespace ClaudeCodeBridge.Program

variable {K V S : Type} [DecidableEq K] {step : (K → V) → S → Option (K → V)} {f after : K → V}

/-- The step is on the value of the key, as `on` says. -/
def OnKey (step : (K → V) → S → Option (K → V)) (on : S → V → Option V) (s : S) (k : K) : Prop :=
  ∀ f, step f s = (on s (f k)).map fun v => Function.update f k v

theorem foldlM_onKey (on : S → V → Option V) {k : K} {steps : List S}
    (h : ∀ s ∈ steps, OnKey step on s k) (f : K → V) :
    steps.foldlM step f =
      (steps.foldlM (fun v s => on s v) (f k)).map fun v => Function.update f k v := by
  induction steps generalizing f with
  | nil => simp
  | cons s steps ih =>
    rw [List.foldlM_cons, List.foldlM_cons, h s List.mem_cons_self f]
    cases hon : on s (f k) with
    | none => rfl
    | some v =>
      have hrest := ih (fun s' hs' => h s' (List.mem_cons_of_mem s hs')) (Function.update f k v)
      rw [Function.update_self] at hrest
      simp only [Option.map_some, Option.bind_eq_bind, Option.bind_some, hrest,
        Function.update_idem]

/-- Blocks of steps, each on its own key. -/
theorem foldlM_blocks (on : S → V → Option V) {α : Type} {items : List α} {key : α → K}
    {block : α → List S}
    (hkeys : (items.map key).Nodup)
    (hon : ∀ item ∈ items, ∀ s ∈ block item, OnKey step on s (key item))
    (hblock : ∀ item ∈ items,
      (block item).foldlM (fun v s => on s v) (f (key item)) = some (after (key item)))
    (hother : ∀ k, k ∉ items.map key → after k = f k) :
    (items.flatMap block).foldlM step f = some after := by
  induction items generalizing f with
  | nil =>
    have hsame : after = f := funext fun k => hother k List.not_mem_nil
    rw [hsame]
    rfl
  | cons item items ih =>
    rw [List.map_cons, List.nodup_cons] at hkeys
    rw [List.flatMap_cons, List.foldlM_append,
      foldlM_onKey on (hon item List.mem_cons_self) f, hblock item List.mem_cons_self]
    change (items.flatMap block).foldlM step
      (Function.update f (key item) (after (key item))) = some after
    refine ih hkeys.2 (fun other hother => hon other (List.mem_cons_of_mem item hother))
      (fun other hmem => ?_) fun k hk => ?_
    · have hne : key other ≠ key item := by
        intro heq
        exact hkeys.1 (heq ▸ List.mem_map_of_mem hmem)
      rw [Function.update_of_ne hne]
      exact hblock other (List.mem_cons_of_mem item hmem)
    · by_cases hkey : k = key item
      · rw [hkey, Function.update_self]
      · rw [Function.update_of_ne hkey]
        apply hother
        rw [List.map_cons, List.mem_cons]
        exact not_or.mpr ⟨hkey, hk⟩

end ClaudeCodeBridge.Program
