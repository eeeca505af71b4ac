import ClaudeCodeBridge.Model.DeviceRegistry
import ClaudeCodeBridge.Program.Moves

/-!
# Revocation of devices

Every call writes back the whole list of devices that it has read, to record when a device
was last seen as much as to revoke one.  A revocation lasts in a run in which no list is
written back that still shows a device unrevoked whose revocation has been written since
it was read.

The ladder: the lists that calls make of what they read (`revoked_of_read`); what a state
says of the tokens that are drawn and of the lists that were read (`RegistryKept`); the
turns (`kept_turn`); the runs (`revocation_lasts`).
-/

set_option autoImplicit false

namespace ClaudeCodeBridge.Analysis.Pairing

open Program
open Model.Pairing
open Model.Pairing.Registry hiding read

variable {store_of : ThreadId → StoreId} {r r' : Registry} {i : ThreadId}

section UpdateFirst

variable {α κ : Type} {p : α → Bool} {f : α → α} {xs : List α} {x : α}

theorem mem_updateFirst (h : x ∈ updateFirst p f xs) : x ∈ xs ∨ ∃ y ∈ xs, p y = true ∧ x = f y := by
  induction xs with
  | nil => exact .inl h
  | cons y ys ih =>
    unfold updateFirst at h
    split at h
    · rename_i hp
      rcases List.mem_cons.mp h with rfl | h
      · exact .inr ⟨y, List.mem_cons_self, hp, rfl⟩
      · exact .inl (List.mem_cons_of_mem _ h)
    · rcases List.mem_cons.mp h with rfl | h
      · exact .inl List.mem_cons_self
      · rcases ih h with h | ⟨z, hz, hpz, rfl⟩
        · exact .inl (List.mem_cons_of_mem _ h)
        · exact .inr ⟨z, List.mem_cons_of_mem _ hz, hpz, rfl⟩

theorem map_updateFirst {key : α → κ} (hkey : ∀ x, key (f x) = key x) (xs : List α) :
    (updateFirst p f xs).map key = xs.map key := by
  induction xs with
  | nil => rfl
  | cons y ys ih =>
    unfold updateFirst
    split
    · rw [List.map_cons, List.map_cons, hkey]
    · rw [List.map_cons, List.map_cons, ih]

theorem mem_updateFirst_of_find (h : xs.find? p = some x) : f x ∈ updateFirst p f xs := by
  induction xs with
  | nil => simp at h
  | cons y ys ih =>
    unfold updateFirst
    by_cases hp : p y = true
    · rw [List.find?_cons_of_pos hp] at h
      rw [if_pos hp, Option.some.inj h]
      exact List.mem_cons_self
    · rw [List.find?_cons_of_neg hp] at h
      rw [if_neg hp]
      exact List.mem_cons_of_mem _ (ih h)

end UpdateFirst

/-- Of the devices of the tokens none is unrevoked. -/
def Barred (tokens : List Token) (devices : List DeviceRecord) : Prop :=
  ∀ x ∈ devices, x.token_hash ∈ tokens → x.revoked_at.isSome

theorem authenticated_ok {devices devices' : List DeviceRecord} {token : Token}
    {scopes : List Text} {now : ℕ} {record : DeviceRecord}
    (h : authenticated devices token scopes now = .ok (record, devices')) :
    (∃ x ∈ devices, x.token_hash = token ∧ x.revoked_at = none) ∧
      devices'.map (fun x => x.token_hash) = devices.map (fun x => x.token_hash) ∧
      ∀ x' ∈ devices', ∃ x ∈ devices, x'.token_hash = x.token_hash ∧
        x'.revoked_at = x.revoked_at := by
  simp only [authenticated, bind_ok, valueOr_ok, refuseIf_ok, pure_ok, Prod.mk.injEq] at h
  obtain ⟨found, hfound, _, hunrevoked, _, _, _, rfl⟩ := h
  refine ⟨⟨found, List.mem_of_find?_eq_some hfound, ?_, ?_⟩, ?_, ?_⟩
  · simpa using List.find?_some hfound
  · simpa using hunrevoked
  · apply map_updateFirst
    intro x
    rfl
  · intro x' hx'
    rcases mem_updateFirst hx' with hx' | ⟨x, hx, _, rfl⟩
    · exact ⟨x', hx', rfl, rfl⟩
    · exact ⟨x, hx, rfl, rfl⟩

theorem revoked_ok {devices devices' : List DeviceRecord} {device_id : Text} {now : ℕ}
    {record : DeviceRecord} (h : revoked devices device_id now = .ok (record, devices')) :
    record ∈ devices' ∧ record.revoked_at.isSome ∧
      (∃ x ∈ devices, x.token_hash = record.token_hash) ∧
      devices'.map (fun x => x.token_hash) = devices.map (fun x => x.token_hash) ∧
      ∀ x' ∈ devices', x'.revoked_at.isSome ∨ x' ∈ devices := by
  simp only [revoked, bind_ok, valueOr_ok, pure_ok, Prod.mk.injEq] at h
  obtain ⟨found, hfound, rfl, rfl⟩ := h
  refine ⟨mem_updateFirst_of_find hfound, rfl,
    ⟨found, List.mem_of_find?_eq_some hfound, rfl⟩, ?_, ?_⟩
  · apply map_updateFirst
    intro x
    rfl
  · intro x' hx'
    rcases mem_updateFirst hx' with hx' | ⟨x, hx, _, rfl⟩
    · exact .inr hx'
    · exact .inl rfl

/-- What was read, in a state in which so many tokens had been drawn. -/
structure ReadOk (drawn : ℕ) (read : DeviceRead) : Prop where
  barred : Barred read.revoked_tokens read.devices
  nodup : (read.devices.map fun x => x.token_hash).Nodup
  drawn : ∀ x ∈ read.devices, x.token_hash < drawn

def readOf : CallPoint → Option DeviceRead
  | .authenticating_write _ read _ _ => some read
  | .revoking_write read _ _ => some read
  | .claiming_write read _ _ _ => some read
  | _ => none

/-- The token that a claim has drawn and not written. -/
def claimToken : CallPoint → Option Token
  | .claiming_check _ _ token => some token
  | .claiming_read _ _ token => some token
  | .claiming_write _ _ token _ => some token
  | _ => none

def callOf : CallPoint → Option Authentication
  | .authenticating call => some call
  | .authenticating_read call => some call
  | .authenticating_write call _ _ _ => some call
  | _ => none

/-- What is about to be written was made of what was read. -/
def WriteOk : CallPoint → Prop
  | .authenticating_write call read record devices =>
    ∃ now, authenticated read.devices call.token call.required_scopes now = .ok (record, devices)
  | .revoking_write read record devices =>
    ∃ device_id now, revoked read.devices device_id now = .ok (record, devices)
  | .claiming_write read device_id token devices =>
    ∃ scopes, devices = claimed read.devices device_id token scopes
  | _ => True

/-- A token that was drawn and is nowhere yet. -/
structure Unused (r : Registry) (token : Token) : Prop where
  drawn : token < r.drawn
  unrevoked : token ∉ r.revoked_tokens
  devices : ∀ x ∈ r.devices, x.token_hash ≠ token
  reads : ∀ j read, readOf (r.thread j) = some read → ∀ x ∈ read.devices, x.token_hash ≠ token

structure RegistryKept (r : Registry) : Prop where
  now : ReadOk r.drawn r.read
  reads : ∀ j read, readOf (r.thread j) = some read → ReadOk r.drawn read
  drawn : ∀ token ∈ r.revoked_tokens, token < r.drawn
  unused : ∀ j token, claimToken (r.thread j) = some token → Unused r token
  alone : ∀ j k token, claimToken (r.thread j) = some token →
    claimToken (r.thread k) = some token → j = k
  writes : ∀ j, WriteOk (r.thread j)
  late : ∀ j call, callOf (r.thread j) = some call → call.late = true →
    call.token ∈ r.revoked_tokens
  accepted : ∀ a ∈ r.accepted, a.2 = false

theorem kept_empty : RegistryKept .empty := by
  refine ⟨⟨?_, ?_, ?_⟩, ?_, ?_, ?_, ?_, ?_, ?_, ?_⟩ <;>
    simp [empty, Registry.read, Barred, readOf, claimToken, callOf, WriteOk]

/-- The devices that a read still shows unrevoked, though their revocation has been written
since. -/
def overlooked (r : Registry) (read : DeviceRead) : List DeviceRecord :=
  read.devices.filter fun x =>
    x.revoked_at.isNone && x.token_hash ∈ r.revoked_tokens && x.token_hash ∉ read.revoked_tokens

/-- Such a device is about to be written back, other than one that the call revokes or
replaces itself. -/
def BringsBack (r : Registry) : CallPoint → Prop
  | .authenticating_write _ was _ _ => ∃ x ∈ overlooked r was, x.revoked_at = none
  | .revoking_write was record _ => ∃ x ∈ overlooked r was, x.token_hash ≠ record.token_hash
  | .claiming_write was device_id _ _ => ∃ x ∈ overlooked r was, x.device_id ≠ device_id
  | _ => False

instance (r : Registry) : DecidablePred (BringsBack r)
  | .idle => inferInstanceAs (Decidable False)
  | .authenticating _ => inferInstanceAs (Decidable False)
  | .authenticating_read _ => inferInstanceAs (Decidable False)
  | .authenticating_write _ was _ _ =>
    inferInstanceAs (Decidable (∃ x ∈ overlooked r was, x.revoked_at = none))
  | .revoking _ => inferInstanceAs (Decidable False)
  | .revoking_read _ => inferInstanceAs (Decidable False)
  | .revoking_write was record _ =>
    inferInstanceAs (Decidable (∃ x ∈ overlooked r was, x.token_hash ≠ record.token_hash))
  | .claiming _ _ => inferInstanceAs (Decidable False)
  | .claiming_check _ _ _ => inferInstanceAs (Decidable False)
  | .claiming_read _ _ _ => inferInstanceAs (Decidable False)
  | .claiming_write was device_id _ _ =>
    inferInstanceAs (Decidable (∃ x ∈ overlooked r was, x.device_id ≠ device_id))

/-- A turn that writes back such a device. -/
def Undoes (r : Registry) : RegistryStep → Prop
  | .call _ _ => False
  | .turn _ i => BringsBack r (r.thread i)

instance (r : Registry) : DecidablePred (Undoes r)
  | .call _ _ => inferInstanceAs (Decidable False)
  | .turn _ i => inferInstanceAs (Decidable (BringsBack r (r.thread i)))

theorem unrevoked_of_overlooked {was : DeviceRead} {x : DeviceRecord} (hx : x ∈ overlooked r was) :
    x.revoked_at = none := by
  have h := (List.mem_filter.mp hx).2
  simp only [Bool.and_eq_true, Option.isNone_iff_eq_none] at h
  exact h.1.1

theorem revoked_of_read {read : DeviceRead} (hbarred : Barred read.revoked_tokens read.devices)
    {x : DeviceRecord} (hx : x ∈ read.devices) (hrevoked : x.token_hash ∈ r.revoked_tokens)
    (hnot : x ∉ overlooked r read) : x.revoked_at.isSome := by
  by_cases hseen : x.token_hash ∈ read.revoked_tokens
  · exact hbarred x hx hseen
  · cases hat : x.revoked_at with
    | some at_ => rfl
    | none =>
      refine absurd (List.mem_filter.mpr ⟨hx, ?_⟩) hnot
      simp [hat, hrevoked, hseen]

section Writes

variable {was : DeviceRead} {devices : List DeviceRecord} {record : DeviceRecord} {now drawn : ℕ}

theorem nodup_of_map (hread : ReadOk drawn was)
    (h : devices.map (fun x => x.token_hash) = was.devices.map fun x => x.token_hash) :
    (devices.map fun x => x.token_hash).Nodup := by
  rw [h]
  exact hread.nodup

theorem read_of_written
    (h : devices.map (fun x => x.token_hash) = was.devices.map fun x => x.token_hash)
    {x : DeviceRecord} (hx : x ∈ devices) : ∃ y ∈ was.devices, y.token_hash = x.token_hash := by
  have hmem : x.token_hash ∈ devices.map fun x => x.token_hash := List.mem_map_of_mem hx
  rw [h] at hmem
  exact List.mem_map.mp hmem

theorem authenticated_readOk {token : Token} {scopes : List Text} (hread : ReadOk drawn was)
    (h : authenticated was.devices token scopes now = .ok (record, devices))
    (hnone : ∀ x, x ∉ overlooked r was) :
    ReadOk drawn ⟨devices, r.revoked_tokens⟩ ∧ token ∉ r.revoked_tokens := by
  obtain ⟨⟨found, hfound, rfl, hunrevoked⟩, hmap, hsame⟩ := authenticated_ok h
  refine ⟨⟨?_, nodup_of_map hread hmap, ?_⟩, ?_⟩
  · intro x' hx' hrevoked
    obtain ⟨x, hx, htoken, hat⟩ := hsame x' hx'
    rw [hat]
    apply revoked_of_read hread.barred hx _ (hnone x)
    rw [← htoken]
    exact hrevoked
  · intro x' hx'
    obtain ⟨x, hx, htoken⟩ := read_of_written hmap hx'
    rw [← htoken]
    exact hread.drawn x hx
  · intro hrevoked
    have hat := revoked_of_read hread.barred hfound hrevoked (hnone found)
    rw [hunrevoked] at hat
    simp at hat

theorem revoked_readOk {device_id : Text} (hread : ReadOk drawn was)
    (h : revoked was.devices device_id now = .ok (record, devices))
    (hnone : ∀ x ∈ overlooked r was, x.token_hash = record.token_hash) :
    ReadOk drawn ⟨devices, r.revoked_tokens ++ [record.token_hash]⟩ := by
  obtain ⟨hrecord, hat, _, hmap, hsame⟩ := revoked_ok h
  refine ⟨?_, nodup_of_map hread hmap, ?_⟩
  · intro x' hx' hrevoked
    rcases hsame x' hx' with hdone | hx
    · exact hdone
    · by_cases htoken : x'.token_hash = record.token_hash
      · have hnodup := nodup_of_map hread hmap
        have heq : x' = record := List.inj_on_of_nodup_map hnodup hx' hrecord htoken
        rw [heq]
        exact hat
      · have hbefore : x'.token_hash ∈ r.revoked_tokens := by
          rcases List.mem_append.mp hrevoked with hmem | hmem
          · exact hmem
          · exact absurd (List.mem_singleton.mp hmem) htoken
        apply revoked_of_read hread.barred hx hbefore
        intro hover
        exact htoken (hnone x' hover)
  · intro x' hx'
    obtain ⟨x, hx, htoken⟩ := read_of_written hmap hx'
    rw [← htoken]
    exact hread.drawn x hx

theorem claimed_readOk {device_id : Text} {token : Token} {scopes : List Text}
    (hread : ReadOk drawn was) (htoken : token < drawn) (hfresh : token ∉ r.revoked_tokens)
    (hnew : ∀ x ∈ was.devices, x.token_hash ≠ token)
    (hnone : ∀ x ∈ overlooked r was, x.device_id = device_id) :
    ReadOk drawn ⟨claimed was.devices device_id token scopes, r.revoked_tokens⟩ := by
  refine ⟨?_, ?_, ?_⟩
  · intro x hx hrevoked
    rcases List.mem_append.mp hx with hx | hx
    · obtain ⟨hx, hkept⟩ := List.mem_filter.mp hx
      apply revoked_of_read hread.barred hx hrevoked
      intro hover
      simp [hnone x hover] at hkept
    · rw [List.mem_singleton.mp hx] at hrevoked
      exact absurd hrevoked hfresh
  · show ((claimed was.devices device_id token scopes).map fun x => x.token_hash).Nodup
    rw [claimed, List.map_append]
    apply List.Nodup.append
    · exact hread.nodup.sublist (List.filter_sublist.map _)
    · exact List.nodup_singleton _
    · intro token' hleft hright
      obtain ⟨x, hx, rfl⟩ := List.mem_map.mp hleft
      exact hnew x (List.mem_filter.mp hx).1 (List.mem_singleton.mp hright)
  · intro x hx
    rcases List.mem_append.mp hx with hx | hx
    · exact hread.drawn x (List.mem_filter.mp hx).1
    · rw [List.mem_singleton.mp hx]
      exact htoken

end Writes

variable {point : CallPoint}

section

variable (hr : RegistryKept r)

include hr

/-- A turn that moves one thread to a point without a pending write, and writes nothing. -/
theorem kept_moved (hm : Moved r.thread r'.thread i point) (hdevices : r'.devices = r.devices)
    (hdrawn : r'.drawn = r.drawn) (hrevoked : r'.revoked_tokens = r.revoked_tokens)
    (haccepted : r'.accepted = r.accepted)
    (hread : readOf point = none ∨ readOf point = some r.read) (hwrite : WriteOk point)
    (hclaim : claimToken point = none ∨ claimToken point = claimToken (r.thread i))
    (hcall : ∀ call, callOf point = some call → call.late = true →
      call.token ∈ r.revoked_tokens) : RegistryKept r' := by
  have hreads : ∀ j read, readOf (r'.thread j) = some read →
      read = r.read ∨ readOf (r.thread j) = some read := by
    intro j read hj
    rcases hm.cases j with ⟨_, hself⟩ | ⟨_, hother⟩
    · rw [hself] at hj
      rcases hread with h | h
      · rw [h] at hj
        simp at hj
      · rw [h] at hj
        exact .inl (Option.some.inj hj).symm
    · rw [hother] at hj
      exact .inr hj
  have hclaims : ∀ j token, claimToken (r'.thread j) = some token →
      claimToken (r.thread j) = some token := by
    intro j token hj
    rcases hm.cases j with ⟨rfl, hself⟩ | ⟨_, hother⟩
    · rw [hself] at hj
      rcases hclaim with h | h
      · rw [h] at hj
        simp at hj
      · rw [← h]
        exact hj
    · rw [← hother]
      exact hj
  refine ⟨?_, ?_, ?_, ?_, ?_, ?_, ?_, ?_⟩
  · have hnow : r'.read = r.read := by
      unfold Registry.read
      rw [hdevices, hrevoked]
    rw [hdrawn, hnow]
    exact hr.now
  · intro j read hj
    rw [hdrawn]
    rcases hreads j read hj with rfl | hj
    · exact hr.now
    · exact hr.reads j read hj
  · rw [hrevoked, hdrawn]
    exact hr.drawn
  · intro j token hj
    have hunused := hr.unused j token (hclaims j token hj)
    refine ⟨?_, ?_, ?_, ?_⟩
    · rw [hdrawn]
      exact hunused.drawn
    · rw [hrevoked]
      exact hunused.unrevoked
    · rw [hdevices]
      exact hunused.devices
    · intro k read hk
      rcases hreads k read hk with rfl | hk
      · exact hunused.devices
      · exact hunused.reads k read hk
  · intro j k token hj hk
    exact hr.alone j k token (hclaims j token hj) (hclaims k token hk)
  · intro j
    rcases hm.cases j with ⟨_, hself⟩ | ⟨_, hother⟩
    · rw [hself]
      exact hwrite
    · rw [hother]
      exact hr.writes j
  · intro j call hj hlate
    rw [hrevoked]
    rcases hm.cases j with ⟨_, hself⟩ | ⟨_, hother⟩
    · rw [hself] at hj
      exact hcall call hj hlate
    · rw [hother] at hj
      exact hr.late j call hj hlate
  · rw [haccepted]
    exact hr.accepted

/-- A turn that writes the devices and leaves its thread without a read. -/
theorem kept_written (hm : Moved r.thread r'.thread i point) (hdrawn : r'.drawn = r.drawn)
    (hnow : ReadOk r.drawn r'.read) (hread : readOf point = none)
    (hclaim : claimToken point = none) (hcall : callOf point = none) (hwrite : WriteOk point)
    (hsub : ∀ token ∈ r.revoked_tokens, token ∈ r'.revoked_tokens)
    (hrevoked : ∀ token ∈ r'.revoked_tokens, token < r.drawn)
    (hfresh : ∀ j token, j ≠ i → claimToken (r.thread j) = some token →
      token ∉ r'.revoked_tokens ∧ ∀ x ∈ r'.devices, x.token_hash ≠ token)
    (haccepted : ∀ a ∈ r'.accepted, a.2 = false) : RegistryKept r' := by
  have hreads : ∀ j was, readOf (r'.thread j) = some was →
      j ≠ i ∧ readOf (r.thread j) = some was := by
    intro j was hj
    exact hm.said (fun point => readOf point = some was) (by simp [hread]) hj
  have hclaims : ∀ j token, claimToken (r'.thread j) = some token →
      j ≠ i ∧ claimToken (r.thread j) = some token := by
    intro j token hj
    exact hm.said (fun point => claimToken point = some token) (by simp [hclaim]) hj
  refine ⟨?_, ?_, ?_, ?_, ?_, ?_, ?_, haccepted⟩
  · rw [hdrawn]
    exact hnow
  · intro j was hj
    rw [hdrawn]
    exact hr.reads j was (hreads j was hj).2
  · rw [hdrawn]
    exact hrevoked
  · intro j token hj
    obtain ⟨hne, hj⟩ := hclaims j token hj
    obtain ⟨hunrevoked, hdevices⟩ := hfresh j token hne hj
    refine ⟨?_, hunrevoked, hdevices, ?_⟩
    · rw [hdrawn]
      exact (hr.unused j token hj).drawn
    · intro k was hk
      exact (hr.unused j token hj).reads k was (hreads k was hk).2
  · intro j k token hj hk
    exact hr.alone j k token (hclaims j token hj).2 (hclaims k token hk).2
  · intro j
    rcases hm.cases j with ⟨_, hself⟩ | ⟨_, hother⟩
    · rw [hself]
      exact hwrite
    · rw [hother]
      exact hr.writes j
  · intro j call hj hlate
    obtain ⟨_, hj⟩ := hm.said (fun point => callOf point = some call) (by simp [hcall]) hj
    exact hsub call.token (hr.late j call hj hlate)

theorem kept_drawn (hm : Moved r.thread r'.thread i point) (hdevices : r'.devices = r.devices)
    (hdrawn : r'.drawn = r.drawn + 1) (hrevoked : r'.revoked_tokens = r.revoked_tokens)
    (haccepted : r'.accepted = r.accepted) (hread : readOf point = none) (hwrite : WriteOk point)
    (hclaim : claimToken point = some r.drawn) (hcall : callOf point = none) : RegistryKept r' := by
  have hgrow : ∀ {was : DeviceRead}, ReadOk r.drawn was → ReadOk (r.drawn + 1) was :=
    fun hwas => ⟨hwas.barred, hwas.nodup, fun x hx => Nat.lt_succ_of_lt (hwas.drawn x hx)⟩
  have hreads : ∀ j was, readOf (r'.thread j) = some was → readOf (r.thread j) = some was := by
    intro j was hj
    exact (hm.said (fun point => readOf point = some was) (by simp [hread]) hj).2
  have hclaims : ∀ j token, claimToken (r'.thread j) = some token →
      (j = i ∧ token = r.drawn) ∨ (j ≠ i ∧ claimToken (r.thread j) = some token) := by
    intro j token hj
    rcases hm.cases j with ⟨rfl, hself⟩ | ⟨hne, hother⟩
    · rw [hself, hclaim] at hj
      exact .inl ⟨rfl, (Option.some.inj hj).symm⟩
    · rw [hother] at hj
      exact .inr ⟨hne, hj⟩
  have hnow : r'.read = r.read := by
    unfold Registry.read
    rw [hdevices, hrevoked]
  refine ⟨?_, ?_, ?_, ?_, ?_, ?_, ?_, ?_⟩
  · rw [hdrawn, hnow]
    exact hgrow hr.now
  · intro j was hj
    rw [hdrawn]
    exact hgrow (hr.reads j was (hreads j was hj))
  · intro token htoken
    rw [hrevoked] at htoken
    rw [hdrawn]
    exact Nat.lt_succ_of_lt (hr.drawn token htoken)
  · intro j token hj
    rcases hclaims j token hj with ⟨_, rfl⟩ | ⟨_, hj⟩
    · refine ⟨?_, ?_, ?_, ?_⟩
      · rw [hdrawn]
        exact Nat.lt_succ_self _
      · rw [hrevoked]
        intro hmem
        exact absurd (hr.drawn _ hmem) (Nat.lt_irrefl _)
      · intro x hx
        rw [hdevices] at hx
        exact (hr.now.drawn x hx).ne
      · intro k was hk x hx
        exact ((hr.reads k was (hreads k was hk)).drawn x hx).ne
    · have hunused := hr.unused j token hj
      refine ⟨?_, ?_, ?_, ?_⟩
      · rw [hdrawn]
        exact Nat.lt_succ_of_lt hunused.drawn
      · rw [hrevoked]
        exact hunused.unrevoked
      · rw [hdevices]
        exact hunused.devices
      · intro k was hk
        exact hunused.reads k was (hreads k was hk)
  · intro j k token hj hk
    rcases hclaims j token hj with ⟨rfl, rfl⟩ | ⟨_, hj⟩ <;>
      rcases hclaims k _ hk with ⟨rfl, htoken⟩ | ⟨_, hk⟩
    · rfl
    · exact absurd (hr.unused k _ hk).drawn (Nat.lt_irrefl _)
    · rw [htoken] at hj
      exact absurd (hr.unused j _ hj).drawn (Nat.lt_irrefl _)
    · exact hr.alone j k token hj hk
  · intro j
    rcases hm.cases j with ⟨_, hself⟩ | ⟨_, hother⟩
    · rw [hself]
      exact hwrite
    · rw [hother]
      exact hr.writes j
  · intro j call hj hlate
    rw [hrevoked]
    obtain ⟨_, hj⟩ := hm.said (fun point => callOf point = some call) (by simp [hcall]) hj
    exact hr.late j call hj hlate
  · rw [haccepted]
    exact hr.accepted

theorem kept_idle (hm : Moved r.thread r'.thread i .idle)
    (hdevices : r'.devices = r.devices) (hdrawn : r'.drawn = r.drawn)
    (hrevoked : r'.revoked_tokens = r.revoked_tokens) (haccepted : r'.accepted = r.accepted) :
    RegistryKept r' :=
  kept_moved hr hm hdevices hdrawn hrevoked haccepted (.inl rfl) trivial (.inl rfl)
    (fun call hcall => by simp [callOf] at hcall)

theorem kept_lock (hread : readOf point = none) (hwrite : WriteOk point)
    (hclaim : claimToken point = none ∨ claimToken point = claimToken (r.thread i))
    (hcall : callOf point = none ∨ callOf point = callOf (r.thread i)) :
    RegistryKept (r.lock store_of i point) := by
  unfold Registry.lock
  cases r.locks (store_of i) with
  | some _ => exact hr
  | none =>
    refine kept_moved hr (moved_update ..) rfl rfl rfl rfl (.inl hread) hwrite hclaim ?_
    intro call hpoint hlate
    rcases hcall with h | h
    · rw [h] at hpoint
      simp at hpoint
    · rw [h] at hpoint
      exact hr.late i call hpoint hlate

theorem kept_begin (call : StoreCall) : RegistryKept (r.begin_call i call) := by
  have hauthenticate : ∀ call : Authentication,
      (call.late = true → call.token ∈ r.revoked_tokens) →
      RegistryKept (r.goto i (.authenticating call)) := by
    intro call hcall
    refine kept_moved hr (moved_update ..) rfl rfl rfl rfl (.inl rfl) trivial (.inl rfl) ?_
    intro call' hpoint hlate
    rw [← Option.some.inj hpoint] at hlate ⊢
    exact hcall hlate
  cases call with
  | authenticate_device token required_scopes => exact hauthenticate _ of_decide_eq_true
  | revoke_device device_id token => exact hauthenticate _ of_decide_eq_true
  | revoke_device_locally device_id | claim_pairing scopes device_id =>
    exact kept_moved hr (moved_update ..) rfl rfl rfl rfl (.inl rfl) trivial (.inl rfl)
      (fun call hcall => by simp [callOf] at hcall)

theorem kept_authenticating_write {call : Authentication} {was : DeviceRead}
    {record : DeviceRecord} {devices : List DeviceRecord}
    (hi : r.thread i = .authenticating_write call was record devices)
    (hundoes : ¬ BringsBack r (r.thread i))
    (hpoint : point = .idle ∨ ∃ device_id, point = .revoking device_id) :
    RegistryKept ({ r with
      devices := devices
      accepted := r.accepted ++ [(call.token, call.late)] }.unlock store_of i point) := by
  have hread : readOf (r.thread i) = some was := by rw [hi]; rfl
  have hwrite := hr.writes i
  rw [hi] at hwrite
  obtain ⟨now, hdone⟩ := hwrite
  have hnone : ∀ x, x ∉ overlooked r was := by
    intro x hx
    apply hundoes
    unfold BringsBack
    rw [hi]
    exact ⟨x, hx, unrevoked_of_overlooked hx⟩
  obtain ⟨hnow, hunrevoked⟩ := authenticated_readOk (hr.reads i was hread) hdone hnone
  obtain ⟨_, hmap, _⟩ := authenticated_ok hdone
  have hpoints : readOf point = none ∧ claimToken point = none ∧ callOf point = none ∧
      WriteOk point := by
    rcases hpoint with rfl | ⟨device_id, rfl⟩ <;> exact ⟨rfl, rfl, rfl, trivial⟩
  obtain ⟨hpread, hpclaim, hpcall, hpwrite⟩ := hpoints
  refine kept_written hr (moved_update ..) rfl hnow hpread hpclaim hpcall hpwrite
    (fun token htoken => htoken) hr.drawn ?_ ?_
  · intro j token _ hj
    have hunused := hr.unused j token hj
    refine ⟨hunused.unrevoked, ?_⟩
    intro x hx
    obtain ⟨y, hy, htoken⟩ := read_of_written hmap hx
    rw [← htoken]
    exact hunused.reads i was hread y hy
  · intro a ha
    rcases List.mem_append.mp ha with ha | ha
    · exact hr.accepted a ha
    · rw [List.mem_singleton.mp ha]
      cases hlate : call.late with
      | false => rfl
      | true =>
        refine absurd (hr.late i call ?_ hlate) hunrevoked
        rw [hi]
        rfl

theorem kept_revoking_write {was : DeviceRead} {record : DeviceRecord} {devices : List DeviceRecord}
    (hi : r.thread i = .revoking_write was record devices) (hundoes : ¬ BringsBack r (r.thread i)) :
    RegistryKept ({ r with
      devices := devices
      revoked_tokens := r.revoked_tokens ++ [record.token_hash] }.unlock store_of i .idle) := by
  have hread : readOf (r.thread i) = some was := by rw [hi]; rfl
  have hwas := hr.reads i was hread
  have hwrite := hr.writes i
  rw [hi] at hwrite
  obtain ⟨device_id, now, hdone⟩ := hwrite
  obtain ⟨_, _, ⟨found, hfound, htoken⟩, hmap, _⟩ := revoked_ok hdone
  have hnone : ∀ x ∈ overlooked r was, x.token_hash = record.token_hash := by
    intro x hx
    by_contra hother
    apply hundoes
    unfold BringsBack
    rw [hi]
    exact ⟨x, hx, hother⟩
  refine kept_written hr (moved_update ..) rfl (revoked_readOk hwas hdone hnone) rfl rfl rfl
    trivial (fun token htoken => List.mem_append_left _ htoken) ?_ ?_ ?_
  · intro token hmem
    rcases List.mem_append.mp hmem with hmem | hmem
    · exact hr.drawn token hmem
    · rw [List.mem_singleton.mp hmem, ← htoken]
      exact hwas.drawn found hfound
  · intro j token _ hj
    have hunused := hr.unused j token hj
    refine ⟨?_, ?_⟩
    · intro hmem
      rcases List.mem_append.mp hmem with hmem | hmem
      · exact hunused.unrevoked hmem
      · rw [List.mem_singleton.mp hmem, ← htoken] at hunused
        exact hunused.reads i was hread found hfound rfl
    · intro x hx
      obtain ⟨y, hy, hxy⟩ := read_of_written hmap hx
      rw [← hxy]
      exact hunused.reads i was hread y hy
  · exact hr.accepted

theorem kept_claiming_write {was : DeviceRead} {device_id : Text}
    {token : Token} {devices : List DeviceRecord}
    (hi : r.thread i = .claiming_write was device_id token devices)
    (hundoes : ¬ BringsBack r (r.thread i)) :
    RegistryKept ({ r with devices := devices }.unlock store_of i .idle) := by
  have hread : readOf (r.thread i) = some was := by rw [hi]; rfl
  have htoken : claimToken (r.thread i) = some token := by rw [hi]; rfl
  have hwrite := hr.writes i
  rw [hi] at hwrite
  obtain ⟨scopes, rfl⟩ := hwrite
  have hown := hr.unused i token htoken
  have hnone : ∀ x ∈ overlooked r was, x.device_id = device_id := by
    intro x hx
    by_contra hother
    apply hundoes
    unfold BringsBack
    rw [hi]
    exact ⟨x, hx, hother⟩
  have hnow : ReadOk r.drawn ⟨claimed was.devices device_id token scopes, r.revoked_tokens⟩ :=
    claimed_readOk (hr.reads i was hread) hown.drawn hown.unrevoked (hown.reads i was hread) hnone
  refine kept_written hr (moved_update ..) rfl hnow rfl rfl rfl trivial
    (fun token htoken => htoken) hr.drawn ?_ ?_
  · intro j token' hne hj
    have hunused := hr.unused j token' hj
    refine ⟨hunused.unrevoked, ?_⟩
    intro x hx
    rcases List.mem_append.mp hx with hx | hx
    · exact hunused.reads i was hread x (List.mem_filter.mp hx).1
    · rw [List.mem_singleton.mp hx]
      rintro rfl
      exact hne (hr.alone j i _ hj htoken)
  · exact hr.accepted

theorem kept_turn (now : ℕ) (hundoes : ¬ BringsBack r (r.thread i)) :
    RegistryKept (r.turn store_of now i) := by
  cases hi : r.thread i with
  | idle => simpa only [turn, hi] using hr
  | authenticating call =>
    simp only [turn, hi]
    exact kept_lock hr rfl trivial (.inl rfl) (.inr (by rw [hi]; rfl))
  | authenticating_read call =>
    simp only [turn, hi]
    cases hdone : authenticated r.devices call.token call.required_scopes now with
    | error e => exact kept_idle hr (moved_update ..) rfl rfl rfl rfl
    | ok made =>
      refine kept_moved hr (moved_update ..) rfl rfl rfl rfl (.inr rfl) ⟨now, hdone⟩ (.inl rfl) ?_
      intro call' hpoint hlate
      apply hr.late i call' _ hlate
      rw [hi]
      exact hpoint
  | authenticating_write call was record devices =>
    simp only [turn, hi]
    cases call.revokes with
    | none => exact kept_authenticating_write hr hi hundoes (.inl rfl)
    | some device_id =>
      apply kept_authenticating_write hr hi hundoes
      split
      · exact .inr ⟨device_id, rfl⟩
      · exact .inl rfl
  | revoking device_id =>
    simp only [turn, hi]
    exact kept_lock hr rfl trivial (.inl rfl) (.inl rfl)
  | revoking_read device_id =>
    simp only [turn, hi]
    cases hdone : revoked r.devices device_id now with
    | error e => exact kept_idle hr (moved_update ..) rfl rfl rfl rfl
    | ok made =>
      exact kept_moved hr (moved_update ..) rfl rfl rfl rfl (.inr rfl) ⟨device_id, now, hdone⟩
        (.inl rfl) (fun call hcall => by simp [callOf] at hcall)
  | revoking_write was record devices =>
    simp only [turn, hi]
    exact kept_revoking_write hr hi hundoes
  | claiming scopes device_id =>
    simp only [turn, hi]
    cases scopes with
    | none => exact kept_idle hr (moved_update ..) rfl rfl rfl rfl
    | some scopes =>
      cases hlock : r.locks (store_of i) with
      | some _ => exact hr
      | none =>
        simp only [Registry.lock, hlock]
        exact kept_drawn hr (moved_update ..) rfl rfl rfl rfl rfl trivial rfl rfl
  | claiming_check scopes device_id token =>
    simp only [turn, hi]
    cases device_id_free r.devices device_id with
    | error e => exact kept_idle hr (moved_update ..) rfl rfl rfl rfl
    | ok _ =>
      exact kept_moved hr (moved_update ..) rfl rfl rfl rfl (.inl rfl) trivial
        (.inr (by rw [hi]; rfl)) (fun call hcall => by simp [callOf] at hcall)
  | claiming_read scopes device_id token =>
    simp only [turn, hi]
    exact kept_moved hr (moved_update ..) rfl rfl rfl rfl (.inr rfl) ⟨scopes, rfl⟩
      (.inr (by rw [hi]; rfl)) (fun call hcall => by simp [callOf] at hcall)
  | claiming_write was device_id token devices =>
    simp only [turn, hi]
    exact kept_claiming_write hr hi hundoes

end

/-- No write of the run brings back a device whose revocation has been written. -/
def CarefulRun (store_of : ThreadId → StoreId) : List RegistryStep → Registry → Prop
  | [], _ => True
  | c :: steps, r =>
    ¬ Undoes r c ∧ CarefulRun store_of steps (r.step store_of c)

def decideCareful (store_of : ThreadId → StoreId) :
    (steps : List RegistryStep) → (r : Registry) → Decidable (CarefulRun store_of steps r)
  | [], _ => inferInstanceAs (Decidable True)
  | c :: steps, r =>
    have := decideCareful store_of steps (r.step store_of c)
    inferInstanceAs (Decidable (¬ Undoes r c ∧ CarefulRun store_of steps (r.step store_of c)))

instance (steps : List RegistryStep) : Decidable (CarefulRun store_of steps r) :=
  decideCareful store_of steps r

theorem kept_step (hr : RegistryKept r) (c : RegistryStep) (hc : ¬ Undoes r c) :
    RegistryKept (r.step store_of c) := by
  cases c with
  | call i call =>
    simp only [step]
    split
    · exact kept_begin hr call
    · exact hr
  | turn now i => exact kept_turn hr now hc

theorem kept_run (steps : List RegistryStep) (hr : RegistryKept r)
    (h : CarefulRun store_of steps r) : RegistryKept (r.run store_of steps) := by
  induction steps generalizing r with
  | nil => exact hr
  | cons c steps ih => exact ih (kept_step hr c h.1) h.2

/-- In a run in which no list of devices is written back that brings back a device whose
revocation has been written, no authentication that began after the revocation of its
device succeeds. -/
theorem revocation_lasts (store_of : ThreadId → StoreId) (steps : List RegistryStep)
    (h : CarefulRun store_of steps .empty) :
    ∀ a ∈ (Registry.empty.run store_of steps).accepted, a.2 = false :=
  (kept_run steps kept_empty h).accepted

section Runs

def exampleDevice : Text := asciiText "d"

def turns (n : ℕ) (i : ThreadId) : List RegistryStep := List.replicate n (.turn 1 i)

/-- The first store's thread claims a pairing, and so makes a device. -/
def paired : List RegistryStep :=
  .call 0 (.claim_pairing (some []) exampleDevice) :: turns 4 0

def authenticates (i : ThreadId) : RegistryStep := .call i (.authenticate_device 0 [])

def revokes (i : ThreadId) : RegistryStep := .call i (.revoke_device_locally exampleDevice)

def revokedAfterwards : List RegistryStep :=
  paired ++ (authenticates 0 :: turns 3 0) ++ (revokes 1 :: turns 3 1) ++
    (authenticates 0 :: turns 3 0)

/-- The device is revoked between the read and the write of an authentication. -/
def revokedBetween : List RegistryStep :=
  paired ++ (authenticates 0 :: turns 2 0) ++ (revokes 1 :: turns 3 1) ++ turns 1 0 ++
    (authenticates 2 :: turns 3 2)

/-- Each thread has a store of its own. -/
theorem revoked_device_accepted :
    (Registry.empty.run id revokedBetween).accepted = [(0, false), (0, true)] := by
  decide

theorem revocation_lasts_afterwards :
    (Registry.empty.run id revokedAfterwards).accepted ≠ [] ∧
      ∀ a ∈ (Registry.empty.run id revokedAfterwards).accepted, a.2 = false := by
  refine ⟨?_, revocation_lasts id revokedAfterwards (by decide)⟩
  decide

end Runs

end ClaudeCodeBridge.Analysis.Pairing
