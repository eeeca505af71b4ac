import ClaudeCodeBridge.Program.Dict
import Mathlib.Algebra.Order.Group.Int

/-!
# The rate limiter of the relay

`_SlidingWindowRateLimiter` of `lib/mobile_gateway/relay_service.py`: the hits of each source in
a deque of its own, oldest first, and the sources in the order of their last calls.
-/

set_option autoImplicit false

namespace ClaudeCodeBridge.Model.Rates

open Program

/-- A later end and an earlier start give a longer time, as with a difference of floats. -/
class MonotoneSub (τ : Type) [LE τ] [Sub τ] : Prop where
  sub_mono : ∀ {a b c d : τ}, a ≤ b → c ≤ d → a - d ≤ b - c

instance : MonotoneSub ℤ := ⟨Int.sub_le_sub⟩

variable {κ τ : Type} [DecidableEq κ] [LinearOrder τ] [Sub τ]

structure RateLimiter (κ τ : Type) where
  limit : ℤ
  window_seconds : τ
  max_keys : ℤ
  hits : Dict κ (List τ)

def RateLimiter.init (limit : ℤ) (window_seconds : τ) (max_keys : ℤ) : RateLimiter κ τ :=
  ⟨limit, window_seconds, max_keys, Dict.empty⟩

/-- `while hits and now - hits[0] > self._window_seconds: hits.popleft()`. -/
def expire (window_seconds now : τ) (hits : List τ) : List τ :=
  hits.dropWhile fun hit => now - hit > window_seconds

/-- `_prune`. -/
def prune (window_seconds now : τ) (hits : Dict κ (List τ)) : Dict κ (List τ) :=
  ⟨(hits.items.map fun item => (item.1, expire window_seconds now item.2)).filter (·.2 ≠ []),
    List.Nodup.sublist (List.filter_sublist.map _)
      (by simpa [Function.comp_def] using hits.nodup_keys)⟩

/-- `while len(self._hits) >= self._max_keys: self._hits.popitem(last=False)`; an empty
dictionary has no item to pop. -/
def evict (max_keys : ℤ) :
    (items : List (κ × List τ)) → (items.map Prod.fst).Nodup → Option (Dict κ (List τ))
  | [], _ => if max_keys ≤ 0 then none else some Dict.empty
  | item :: rest, h =>
    if max_keys ≤ (item :: rest).length then evict max_keys rest h.of_cons
    else some ⟨item :: rest, h⟩

/-- The other entries: that of the call goes to the end, whether it is new or moved. -/
def make_room (max_keys : ℤ) (hits : Dict κ (List τ)) (key : κ) : Option (Dict κ (List τ)) :=
  match hits.get key with
  | none => evict max_keys hits.items hits.nodup_keys
  | some _ => some (hits.pop key)

/-- The hits of a key, or the new deque. -/
def hits_of (hits : Dict κ (List τ)) (key : κ) : List τ := (hits.get key).getD []

def RateLimiter.allow (r : RateLimiter κ τ) (key : κ) (now : τ) : Option (Bool × RateLimiter κ τ) :=
  let pruned := prune r.window_seconds now r.hits
  let hits := expire r.window_seconds now (hits_of pruned key)
  (make_room r.max_keys pruned key).map fun others =>
    if hits.length ≥ r.limit then (false, { r with hits := others.set key hits })
    else (true, { r with hits := others.set key (hits ++ [now]) })

/-- A call that returned. -/
structure Decision (κ τ : Type) where
  key : κ
  time : τ
  allowed : Bool

/-- The calls one after another, each a key and the time that the clock showed. -/
def RateLimiter.run (r : RateLimiter κ τ) : List (κ × τ) → Option (List (Decision κ τ))
  | [] => some []
  | (key, now) :: calls => do
    let (allowed, r) ← r.allow key now
    let decisions ← r.run calls
    some (⟨key, now, allowed⟩ :: decisions)

end ClaudeCodeBridge.Model.Rates
