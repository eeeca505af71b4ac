import ClaudeCodeBridge.Model.RelayRates
import Mathlib.Data.Finset.Card

/-!
# The sliding window

The reference counts the allowed calls of a key (`recent`).  The limiter keeps for each key every
hit that still counts (`Kept`), since a source is evicted only when `max_keys` others have one.
-/

set_option autoImplicit false

namespace ClaudeCodeBridge.Analysis.Rates

open Program
open Model.Rates

variable {κ τ : Type} {limit max_keys : ℤ}

theorem evict_of_lt {items : List (κ × List τ)} (hnodup : (items.map Prod.fst).Nodup)
    (hlt : (items.length : ℤ) < max_keys) : evict max_keys items hnodup = some ⟨items, hnodup⟩ := by
  cases items with
  | nil | cons item rest => exact if_neg (not_le.mpr hlt)

theorem evict_returns (hkeys : 0 < max_keys) (items : List (κ × List τ))
    (hnodup : (items.map Prod.fst).Nodup) : ∃ others, evict max_keys items hnodup = some others := by
  induction items with
  | nil => exact ⟨_, if_neg (not_le.mpr hkeys)⟩
  | cons item rest ih =>
    unfold evict
    split
    · exact ih _
    · exact ⟨_, rfl⟩

variable [DecidableEq κ]

theorem make_room_returns (hkeys : 0 < max_keys) (hits : Dict κ (List τ)) (key : κ) :
    ∃ others, make_room max_keys hits key = some others := by
  unfold make_room
  split
  · exact evict_returns hkeys hits.items hits.nodup_keys
  · exact ⟨_, rfl⟩

/-- Without an eviction only the entry of the key is gone. -/
theorem get_make_room {hits others : Dict κ (List τ)} {key k : κ}
    (hroom : hits.get key = none → (hits.items.length : ℤ) < max_keys)
    (h : make_room max_keys hits key = some others) (hne : k ≠ key) :
    others.get k = hits.get k := by
  unfold make_room at h
  split at h
  · rw [evict_of_lt hits.nodup_keys (hroom ‹_›), Option.some_inj] at h
    rw [← h]
  · cases h
    exact hits.get_pop_of_ne hne

variable {log : List (Decision κ τ)}

/-- The times of the allowed calls of a key. -/
def allowedTimes (log : List (Decision κ τ)) (key : κ) : List τ :=
  (log.filter fun d => d.key = key ∧ d.allowed).map Decision.time

theorem allowedTimes_append (d : Decision κ τ) (key : κ) :
    allowedTimes (log ++ [d]) key =
      allowedTimes log key ++ if d.key = key ∧ d.allowed then [d.time] else [] := by
  unfold allowedTimes
  split <;> simp [List.filter_append, *]

variable [LinearOrder τ] [Sub τ] {window now later : τ} {r next : RateLimiter κ τ} {key : κ}
  {allowed : Bool}

/-- Those of them not older than the window. -/
def recent (window : τ) (log : List (Decision κ τ)) (key : κ) (now : τ) : List τ :=
  (allowedTimes log key).filter fun hit => now - hit ≤ window

/-- The keys with an allowed hit in the window. -/
def liveKeys (window : τ) (log : List (Decision κ τ)) (now : τ) : Finset κ :=
  ((log.filter fun d => d.allowed ∧ d.time ≤ now ∧ now - d.time ≤ window).map
    Decision.key).toFinset

def KeysWithin (max_keys : ℤ) (window : τ) (log : List (Decision κ τ)) : Prop :=
  ∀ now, ((liveKeys window log now).card : ℤ) ≤ max_keys

/-- The clock has shown no later time. -/
def Past (log : List (Decision κ τ)) (now : τ) : Prop := ∀ d ∈ log, d.time ≤ now

theorem mem_liveKeys : key ∈ liveKeys window log now ↔
    ∃ d ∈ log, d.key = key ∧ d.allowed ∧ d.time ≤ now ∧ now - d.time ≤ window := by
  simp only [liveKeys, List.mem_toFinset, List.mem_map, List.mem_filter, decide_eq_true_eq]
  constructor
  · rintro ⟨d, ⟨hd, hlive⟩, hkey⟩
    exact ⟨d, hd, hkey, hlive⟩
  · rintro ⟨d, hd, hkey, hlive⟩
    exact ⟨d, ⟨hd, hlive⟩, hkey⟩

theorem KeysWithin.of_append {more : List (Decision κ τ)}
    (h : KeysWithin max_keys window (log ++ more)) : KeysWithin max_keys window log := by
  intro now
  have hsub : liveKeys window log now ⊆ liveKeys window (log ++ more) now := by
    intro key hkey
    obtain ⟨d, hd, hlive⟩ := mem_liveKeys.mp hkey
    exact mem_liveKeys.mpr ⟨d, List.mem_append_left more hd, hlive⟩
  have hcard := Finset.card_le_card hsub
  have hmore := h now
  omega

section Expiry

variable [MonotoneSub τ] {hits : List τ}

/-- Looking once more later makes up for any earlier look. -/
theorem expire_expire (hle : now ≤ later) :
    expire window later (expire window now hits) = expire window later hits := by
  induction hits with
  | nil => rfl
  | cons hit rest ih =>
    by_cases hold : now - hit > window
    · have hlater : later - hit > window :=
        lt_of_lt_of_le hold (MonotoneSub.sub_mono hle (le_refl hit))
      rw [expire, expire, List.dropWhile_cons_of_pos (by simpa using hold),
        expire, List.dropWhile_cons_of_pos (by simpa using hlater)]
      exact ih
    · rw [expire, expire, List.dropWhile_cons_of_neg (by simpa using hold), expire]

theorem expire_append (hle : now ≤ later) (more : List τ) :
    expire window later (expire window now hits ++ more) = expire window later (hits ++ more) := by
  have h : expire window later (expire window now hits) = expire window later hits :=
    expire_expire hle
  unfold expire at h ⊢
  rw [List.dropWhile_append, h, ← List.dropWhile_append]

theorem expire_of_sorted (hsorted : hits.Pairwise (· ≤ ·)) :
    expire window now hits = hits.filter fun hit => now - hit ≤ window := by
  induction hits with
  | nil => rfl
  | cons hit rest ih =>
    rw [List.pairwise_cons] at hsorted
    by_cases hold : now - hit > window
    · rw [expire, List.dropWhile_cons_of_pos (by simpa using hold),
        List.filter_cons_of_neg (by simpa using hold)]
      exact ih hsorted.2
    · rw [expire, List.dropWhile_cons_of_neg (by simpa using hold)]
      symm
      apply List.filter_eq_self.mpr
      intro other hother
      have hle : hit ≤ other := by
        rcases List.mem_cons.mp hother with rfl | hrest
        · exact le_rfl
        · exact hsorted.1 other hrest
      simpa using (MonotoneSub.sub_mono le_rfl hle).trans (not_lt.mp hold)

end Expiry

theorem hits_of_prune (hits : Dict κ (List τ)) (key : κ) :
    hits_of (prune window now hits) key = expire window now (hits_of hits key) := by
  unfold hits_of
  cases hget : (prune window now hits).get key with
  | some queue =>
    obtain ⟨hitem, _⟩ := List.mem_filter.mp (Dict.mem_of_get hget)
    obtain ⟨⟨_, stored⟩, hstored, heq⟩ := List.mem_map.mp hitem
    cases heq
    rw [Dict.get_of_mem hstored]
    rfl
  | none =>
    cases hqueue : hits.get key with
    | none => rfl
    | some queue =>
      by_contra hne
      refine Dict.get_eq_none_iff.mp hget (key, expire window now queue)
        (List.mem_filter.mpr ⟨List.mem_map.mpr ⟨_, Dict.mem_of_get hqueue, rfl⟩, ?_⟩) rfl
      simpa using Ne.symm hne

theorem allow_cases (h : r.allow key now = some (allowed, next)) :
    ∃ others hits, make_room r.max_keys (prune r.window_seconds now r.hits) key = some others ∧
      hits = expire r.window_seconds now (hits_of (prune r.window_seconds now r.hits) key) ∧
      (allowed = true ↔ (hits.length : ℤ) < r.limit) ∧
      next = { r with hits := others.set key (if allowed then hits ++ [now] else hits) } := by
  obtain ⟨others, hothers, h⟩ := Option.map_eq_some_iff.mp h
  refine ⟨others, _, hothers, rfl, ?_⟩
  split at h <;> cases h
  · exact ⟨by simpa using ‹_›, rfl⟩
  · exact ⟨by simpa using not_le.mp ‹_›, rfl⟩

theorem allow_config (h : r.allow key now = some (allowed, next)) :
    next.limit = r.limit ∧ next.window_seconds = r.window_seconds ∧ next.max_keys = r.max_keys := by
  obtain ⟨_, _, _, _, _, rfl⟩ := allow_cases h
  exact ⟨rfl, rfl, rfl⟩

theorem run_returns (hkeys : 0 < r.max_keys) (calls : List (κ × τ)) :
    ∃ decisions, r.run calls = some decisions ∧
      decisions.map (fun d => (d.key, d.time)) = calls := by
  induction calls generalizing r with
  | nil => exact ⟨[], rfl, rfl⟩
  | cons call calls ih =>
    obtain ⟨key, now⟩ := call
    obtain ⟨others, hothers⟩ := make_room_returns hkeys (prune r.window_seconds now r.hits) key
    obtain ⟨⟨allowed, next⟩, hallow⟩ : ∃ result, r.allow key now = some result := by
      rw [RateLimiter.allow, hothers]
      exact ⟨_, rfl⟩
    obtain ⟨_, _, hmax⟩ := allow_config hallow
    obtain ⟨decisions, hrun, hcalls⟩ := ih (hmax ▸ hkeys)
    refine ⟨⟨key, now, allowed⟩ :: decisions, ?_, by rw [List.map_cons, hcalls]⟩
    simp only [RateLimiter.run, hallow, hrun, Option.bind_eq_bind, Option.bind_some]

/-- The limiter may keep more hits than count or fewer than were allowed, but a look at a time not
before the last call finds those of the log. -/
structure Kept (r : RateLimiter κ τ) (log : List (Decision κ τ)) : Prop where
  expired : ∀ key now, Past log now → expire r.window_seconds now (hits_of r.hits key) =
    expire r.window_seconds now (allowedTimes log key)
  limited : ∀ d ∈ log, d.allowed → 0 < r.limit

theorem Kept.pruned (hkept : Kept r log) (hpast : Past log now) (key : κ) :
    hits_of (prune r.window_seconds now r.hits) key =
      expire r.window_seconds now (allowedTimes log key) := by
  rw [hits_of_prune, hkept.expired key now hpast]

/-- Every key that is left has a hit that counts. -/
theorem Kept.live (hkept : Kept r log) (hpast : Past log now)
    (hkey : key ∈ (prune r.window_seconds now r.hits).items.map Prod.fst) :
    key ∈ liveKeys r.window_seconds log now := by
  obtain ⟨⟨key, queue⟩, hitem, rfl⟩ := List.mem_map.mp hkey
  have hne : queue ≠ [] := by simpa using (List.mem_filter.mp hitem).2
  have hqueue := hkept.pruned hpast key
  rw [hits_of, Dict.get_of_mem hitem, Option.getD_some] at hqueue
  have hfresh := List.head_dropWhile_not (fun hit => now - hit > r.window_seconds) (hqueue ▸ hne)
  have hmem := List.dropWhile_subset _ (List.head_mem (hqueue ▸ hne))
  obtain ⟨d, hd, htime⟩ := List.mem_map.mp hmem
  obtain ⟨hin, hd⟩ := List.mem_filter.mp hd
  rw [decide_eq_true_iff] at hd
  refine mem_liveKeys.mpr ⟨d, hin, hd.1, hd.2, hpast d hin, ?_⟩
  rw [htime]
  simpa using hfresh

variable [MonotoneSub τ]

/-- A source is evicted only when `max_keys` others count: the call would be one more. -/
theorem Kept.room (hkept : Kept r log) (hpast : Past log now) (hkeys : 0 < r.max_keys)
    (hwithin : KeysWithin r.max_keys r.window_seconds (log ++ [⟨key, now, allowed⟩]))
    (hnew : (prune r.window_seconds now r.hits).get key = none)
    (hallowed : 0 < r.limit → allowed = true) :
    ((prune r.window_seconds now r.hits).items.length : ℤ) < r.max_keys := by
  by_contra hfull
  have hlive : ∀ k ∈ (prune r.window_seconds now r.hits).items.map Prod.fst,
      k ∈ liveKeys r.window_seconds log now := fun _ => hkept.live hpast
  generalize prune r.window_seconds now r.hits = pruned at hnew hfull hlive
  have hkey : key ∉ pruned.items.map Prod.fst := by
    intro hin
    obtain ⟨item, hitem, rfl⟩ := List.mem_map.mp hin
    exact Dict.get_eq_none_iff.mp hnew item hitem rfl
  have hsub : (key :: pruned.items.map Prod.fst).toFinset ⊆
      liveKeys r.window_seconds (log ++ [⟨key, now, allowed⟩]) now := by
    intro k hk
    rcases List.mem_cons.mp (List.mem_toFinset.mp hk) with rfl | hk
    · -- an allowed call that counts shows that the call is allowed and counts
      obtain ⟨item, hitem⟩ := List.exists_mem_of_length_pos (l := pruned.items) (by omega)
      obtain ⟨d, hd, _, hdallowed, hle, hfresh⟩ :=
        mem_liveKeys.mp (hlive item.1 (List.mem_map_of_mem hitem))
      exact mem_liveKeys.mpr ⟨_, List.mem_append_right log (List.mem_singleton_self _), rfl,
        hallowed (hkept.limited d hd hdallowed), le_rfl,
        (MonotoneSub.sub_mono le_rfl hle).trans hfresh⟩
    · obtain ⟨d, hd, hlive⟩ := mem_liveKeys.mp (hlive k hk)
      exact mem_liveKeys.mpr ⟨d, List.mem_append_left _ hd, hlive⟩
  have hcard := Finset.card_le_card hsub
  rw [List.toFinset_card_of_nodup (List.nodup_cons.mpr ⟨hkey, pruned.nodup_keys⟩),
    List.length_cons, List.length_map] at hcard
  have := hwithin now
  omega

/-- One call keeps what the limiter knows, if the keys are within the limit after it. -/
theorem Kept.allow (hkept : Kept r log) (hpast : Past log now) (hkeys : 0 < r.max_keys)
    (h : r.allow key now = some (allowed, next))
    (hwithin : KeysWithin r.max_keys r.window_seconds (log ++ [⟨key, now, allowed⟩])) :
    Kept next (log ++ [⟨key, now, allowed⟩]) := by
  obtain ⟨others, hits, hothers, hhits, hallowed, rfl⟩ := allow_cases h
  have hroom : (prune r.window_seconds now r.hits).get key = none →
      ((prune r.window_seconds now r.hits).items.length : ℤ) < r.max_keys := by
    intro hnew
    refine hkept.room hpast hkeys hwithin hnew fun hlimit => hallowed.mpr ?_
    rw [hhits, hits_of, hnew]
    exact hlimit
  rw [hkept.pruned hpast, expire_expire le_rfl] at hhits
  -- the deque of every key, in terms of the hits that counted at the call
  have hget : ∀ k, hits_of (others.set key (if allowed then hits ++ [now] else hits)) k =
      expire r.window_seconds now (allowedTimes log k) ++
        if key = k ∧ allowed then [now] else [] := by
    intro k
    rw [hits_of, Dict.get_set]
    by_cases hk : key = k
    · subst hk
      cases allowed <;> simp [hhits]
    · rw [if_neg hk, get_make_room hroom hothers (Ne.symm hk), ← hits_of, hkept.pruned hpast]
      simp [hk]
  refine ⟨fun k later hall => ?_, fun d hd hdallowed => ?_⟩
  · have hlater : now ≤ later :=
      hall _ (List.mem_append_right log (List.mem_singleton_self _))
    rw [hget, allowedTimes_append, expire_append hlater]
  · rcases List.mem_append.mp hd with hd | hd
    · exact hkept.limited d hd hdallowed
    · rw [List.mem_singleton.mp hd] at hdallowed
      exact lt_of_le_of_lt (Int.natCast_nonneg _) (hallowed.mp hdallowed)

theorem run_decides {calls : List (κ × τ)} {decisions : List (Decision κ τ)}
    (hkeys : 0 < r.max_keys) (hkept : Kept r log)
    (hclock : (log.map Decision.time ++ calls.map Prod.snd).Pairwise (· ≤ ·))
    (hrun : r.run calls = some decisions) {earlier rest : List (Decision κ τ)} {d : Decision κ τ}
    (hd : decisions = earlier ++ d :: rest)
    (hwithin : KeysWithin r.max_keys r.window_seconds (log ++ earlier)) :
    d.allowed = true ↔
      ((recent r.window_seconds (log ++ earlier) d.key d.time).length : ℤ) < r.limit := by
  induction calls generalizing r log decisions earlier with
  | nil =>
    cases hrun
    exact absurd hd.symm (by simp)
  | cons call calls ih =>
    obtain ⟨key, now⟩ := call
    simp only [RateLimiter.run, Option.bind_eq_bind, Option.bind_eq_some_iff] at hrun
    obtain ⟨⟨allowed, next⟩, hallow, tail, htail, hdecisions⟩ := hrun
    obtain rfl := Option.some_inj.mp hdecisions
    have hsorted := List.pairwise_append.mp hclock
    have hpast : Past log now := fun d hd =>
      hsorted.2.2 d.time (List.mem_map_of_mem hd) now List.mem_cons_self
    cases earlier with
    | nil =>
      cases hd
      obtain ⟨_, hits, _, hhits, hallowed, _⟩ := allow_cases hallow
      have htimes : (allowedTimes log key).Pairwise (· ≤ ·) :=
        hsorted.1.sublist (List.filter_sublist.map Decision.time)
      rw [hkept.pruned hpast, expire_expire le_rfl, expire_of_sorted htimes] at hhits
      rw [List.append_nil, hallowed, hhits]
      rfl
    | cons first earlier =>
      cases hd
      rw [List.append_cons] at hwithin ⊢
      have hnext := hkept.allow hpast hkeys hallow hwithin.of_append
      obtain ⟨hlimit, hwindow, hmax⟩ := allow_config hallow
      rw [← hmax, ← hwindow] at hwithin
      rw [← hlimit, ← hwindow]
      refine ih (hmax ▸ hkeys) hnext ?_ htail rfl hwithin
      rwa [List.map_append, List.map_singleton, ← List.append_cons]

/-- A call returns `True` exactly when fewer than `limit` earlier allowed calls of its key are not
older than the window, as long as no more than `max_keys` keys had one at a time before it.  The
configuration of the service has a positive `max_keys`.

SOURCE: lib/mobile_gateway/relay_service.py:88-93, 272-308 -/
theorem sliding_window (limit : ℤ) (window : τ) (max_keys : ℤ) (hkeys : 0 < max_keys)
    (calls : List (κ × τ)) (hclock : (calls.map Prod.snd).Pairwise (· ≤ ·)) :
    ∃ decisions, (RateLimiter.init limit window max_keys).run calls = some decisions ∧
      decisions.map (fun d => (d.key, d.time)) = calls ∧
      ∀ earlier d later, decisions = earlier ++ d :: later → KeysWithin max_keys window earlier →
        (d.allowed = true ↔ ((recent window earlier d.key d.time).length : ℤ) < limit) := by
  obtain ⟨decisions, hrun, hcalls⟩ := run_returns (r := RateLimiter.init limit window max_keys)
    hkeys calls
  have hkept : Kept (RateLimiter.init limit window max_keys) ([] : List (Decision κ τ)) :=
    ⟨fun _ _ _ => rfl, by simp⟩
  refine ⟨decisions, hrun, hcalls, fun earlier d later hd hwithin => ?_⟩
  exact run_decides hkeys hkept hclock hrun hd hwithin

/-- One key at a time; a denied call does not count. -/
theorem sliding_window_two_keys : ∃ decisions,
    (RateLimiter.init 1 10 1).run [(true, 0), (true, 5), (false, 11), (false, 12), (true, 22)] =
      some decisions ∧ decisions.map Decision.allowed = [true, false, true, false, true] ∧
      ∀ earlier d later, decisions = earlier ++ d :: later →
        (d.allowed = true ↔ (recent (10 : ℤ) earlier d.key d.time).length < (1 : ℤ)) := by
  obtain ⟨decisions, hrun, _, hiff⟩ := sliding_window 1 (10 : ℤ) 1 (by decide)
    [(true, 0), (true, 5), (false, 11), (false, 12), (true, 22)] (by decide)
  have heq : decisions = [⟨true, 0, true⟩, ⟨true, 5, false⟩, ⟨false, 11, true⟩, ⟨false, 12, false⟩,
      ⟨true, 22, true⟩] := Option.some_inj.mp (hrun.symm.trans (by rfl))
  have hwithin : KeysWithin 1 10 decisions := by
    intro now
    have hcard : (liveKeys 10 decisions now).card ≤ 1 := by
      rw [Finset.card_le_one, heq]
      simp only [mem_liveKeys, List.mem_cons, List.not_mem_nil]
      grind
    omega
  refine ⟨decisions, hrun, by rw [heq]; rfl, fun earlier d later hd => hiff earlier d later hd ?_⟩
  exact (hd ▸ hwithin).of_append

end ClaudeCodeBridge.Analysis.Rates
