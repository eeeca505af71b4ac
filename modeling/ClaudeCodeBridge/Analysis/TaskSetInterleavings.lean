import ClaudeCodeBridge.Model.TaskSetThreads
import ClaudeCodeBridge.Analysis.ClosureIntents

/-!
# Processes that evaluate, settle and revise one task set

What one access may do to the files is `Advance`: the record goes to a later revision, or
keeps its own and, once it is settled or being revised, stays so; no intent is lost.  It is
transitive, so it is enough that every access of every process advances the files.

An access to the record is made under `task-set.lock`, where the record is the one that the
process has read; the other processes leave everything but intents and clock alone
(`Relied.alone`).  The intents are written under two locks that do not exclude each other, so
a process writes what it has made of the intents that it has read; where nobody has written
them meanwhile, nothing is lost.

The ladder: one access is fair to the others (`fair_access`); what runs under the lock
(`guards_evaluate_task_set_closure`, `guards_settle_task_set`, `guards_revise_task_set_authority`)
and the calls (`guards_call`) are safe; and every schedule without interference keeps what is
settled and every intent (`settled_lasts`).
-/

set_option autoImplicit false

namespace ClaudeCodeBridge.Analysis.TaskSet

open Program
open Model.PlanTask
open Model.TaskSet
open Prog

theorem becomes_refl (intent : ClosureIntent) : intent.Becomes intent := Or.inl rfl

theorem becomes_trans {a b c : ClosureIntent} (hab : a.Becomes b) (hbc : b.Becomes c) :
    a.Becomes c := by
  rcases hab with hab | ⟨hpending, hab⟩
  · exact hab ▸ hbc
  rcases hbc with hbc | ⟨_, hbc⟩
  · exact Or.inr ⟨hpending, by rw [hbc, ← hab]⟩
  · refine Or.inr ⟨hpending, ?_⟩
    rw [hab] at hbc
    exact hbc

theorem nothingLost_refl (intents : List ClosureIntent) : NothingLost intents intents :=
  fun _ intent h => ⟨intent, h, becomes_refl intent⟩

theorem nothingLost_trans {a b c : List ClosureIntent} (hab : NothingLost a b)
    (hbc : NothingLost b c) : NothingLost a c := by
  intro n intent hintent
  obtain ⟨next, hnext, hbecomes⟩ := hab n intent hintent
  obtain ⟨last, hlast, hbecomes'⟩ := hbc n next hnext
  exact ⟨last, hlast, becomes_trans hbecomes hbecomes'⟩

theorem nothingLost_append (intents appended : List ClosureIntent) :
    NothingLost intents (intents ++ appended) := by
  intro n intent hintent
  have hn : n < intents.length := (List.getElem?_eq_some_iff.mp hintent).1
  exact ⟨intent, by rw [List.getElem?_append_left hn, hintent], becomes_refl intent⟩

theorem nothingLost_map {f : ClosureIntent → ClosureIntent} {intents : List ClosureIntent}
    (h : ∀ intent ∈ intents, intent.Becomes (f intent)) :
    NothingLost intents (intents.map f) := by
  intro n intent hintent
  exact ⟨f intent, by rw [List.getElem?_map, hintent, Option.map_some],
    h intent (List.mem_of_getElem? hintent)⟩

def is_finished (state : TaskSetState) : Bool := state.is_settled || state.is_revising

/-- A record that takes the place of another. -/
def Follows (record record' : TaskSetRecord) : Prop :=
  record.task_set_revision < record'.task_set_revision ∨
    record'.task_set_revision = record.task_set_revision ∧
      (is_finished record.state = true → is_finished record'.state = true)

structure Advance (w w' : TaskSetFiles) : Prop where
  record : ∀ record, w.task_set = some record →
    ∃ record', w'.task_set = some record' ∧ Follows record record'
  intents : NothingLost (w.intents.getD []) (w'.intents.getD [])

theorem follows_refl (record : TaskSetRecord) : Follows record record := Or.inr ⟨rfl, id⟩

theorem follows_trans {a b c : TaskSetRecord} (hab : Follows a b) (hbc : Follows b c) :
    Follows a c := by
  rcases hab with hab | ⟨hrevision, hab⟩
  · left
    rcases hbc with hbc | ⟨hbc, _⟩
    · omega
    · omega
  rcases hbc with hbc | ⟨hrevision', hbc⟩
  · left
    omega
  · exact Or.inr ⟨by omega, fun h => hbc (hab h)⟩

variable {w w' : TaskSetFiles}

theorem advance_of_same (hrecord : w'.task_set = w.task_set)
    (hintents : w'.intents = w.intents) : Advance w w' :=
  { record := fun record h => ⟨record, hrecord ▸ h, follows_refl record⟩
    intents := hintents ▸ nothingLost_refl _ }

theorem advance_refl (w : TaskSetFiles) : Advance w w := advance_of_same rfl rfl

theorem advance_trans {a b c : TaskSetFiles} (hab : Advance a b) (hbc : Advance b c) :
    Advance a c :=
  { record := by
      intro record hrecord
      obtain ⟨next, hnext, hfollows⟩ := hab.record record hrecord
      obtain ⟨last, hlast, hfollows'⟩ := hbc.record next hnext
      exact ⟨last, hlast, follows_trans hfollows hfollows'⟩
    intents := nothingLost_trans hab.intents hbc.intents }

theorem lasts_of_advance (h : Advance w w') : Lasts w w' := by
  refine { settled := ?_, intents := h.intents }
  intro record record' hrecord hrecord' hrevision hsettled
  obtain ⟨next, hnext, hfollows⟩ := h.record record hrecord
  have hsame : next = record' := Option.some.inj (hnext.symm.trans hrecord')
  subst hsame
  rcases hfollows with hlater | ⟨_, hfinished⟩
  · omega
  · have hnow : is_finished next.state = true := hfinished (by simp [is_finished, hsettled])
    constructor
    · intro hstate
      rw [hstate] at hnow
      cases hnow
    · intro hstate
      rw [hstate] at hnow
      cases hnow

def Apart (w w' : TaskSetFiles) : Prop :=
  w' = { w with
    intents := w'.intents
    clock := w'.clock }

theorem apart_refl (w : TaskSetFiles) : Apart w w := rfl

theorem apart_trans {a b c : TaskSetFiles} (hab : Apart a b) (hbc : Apart b c) : Apart a c := by
  unfold Apart at hab hbc ⊢
  rw [hab] at hbc
  exact hbc

variable {ι : Type}

/-- What process `j` relies on of the accesses of the others: its locks stay its own, its
lock of the task set keeps them from everything but intents and clock, and what is noted of
its own accesses stays noted. -/
structure Relied (j : ι) (x y : Shared ι TaskSetFiles (Watched ι)) : Prop where
  holds : ∀ name, x.ghost.holder name = some j → y.ghost.holder name = some j
  alone : x.ghost.holder .task_set = some j → Apart x.store y.store
  looked : y.ghost.looked j = x.ghost.looked j
  seen : y.ghost.seen j = x.ghost.seen j

theorem relied_refl (j : ι) (x : Shared ι TaskSetFiles (Watched ι)) : Relied j x x :=
  { holds := fun _ h => h
    alone := fun _ => apart_refl _
    looked := rfl
    seen := rfl }

variable {y : Shared ι TaskSetFiles (Watched ι)}

theorem relied_trans {j : ι} {x z : Shared ι TaskSetFiles (Watched ι)} (hxy : Relied j x y)
    (hyz : Relied j y z) : Relied j x z :=
  { holds := fun name h => hyz.holds name (hxy.holds name h)
    alone := fun h => apart_trans (hxy.alone h) (hyz.alone (hxy.holds _ h))
    looked := hyz.looked.trans hxy.looked
    seen := hyz.seen.trans hxy.seen }

theorem relied_lock (j : ι) (y : Shared ι TaskSetFiles (Watched ι)) (lock : Option (ι × ℕ)) :
    Relied j y { y with lock := lock } :=
  { holds := fun _ h => h
    alone := fun _ => apart_refl _
    looked := rfl
    seen := rfl }

variable [DecidableEq ι] (library : TaskSetLibrary) (calls : ι → FeedbackCall)

def feedback : Contract ι FileAccess TaskSetFiles (Watched ι) where
  toMonitor := undisturbed library calls
  inv x := Advance x.ghost.before x.store
  rely := Relied
  rely_refl := relied_refl
  rely_trans _ _ _ _ := relied_trans

variable {library calls} {i : ι} {x : Shared ι TaskSetFiles (Watched ι)}

abbrev next (i : ι) (access : FileAccess) (y : Shared ι TaskSetFiles (Watched ι)) :
    Shared ι TaskSetFiles (Watched ι) :=
  { y with
    store := access.2 y.store
    ghost := y.ghost.notes i access y.store }

/-- **An access that advances the files is fair to the others, if it changes intents and clock
alone or is made under the lock of the task set.** -/
theorem fair_access {access : FileAccess} (hfree : free access.1.locking y.ghost.holder = true)
    (hadvance : Advance y.store (access.2 y.store))
    (halone : y.ghost.holder .task_set = some i ∨ Apart y.store (access.2 y.store)) :
    (feedback library calls).Fair i y (next i access y) := by
  refine ⟨hadvance, fun j hne => ?_⟩
  refine
    { holds := fun name h => holders_of_ne hne hfree h
      alone := fun h => ?_
      looked := ?_
      seen := ?_ }
  · rcases halone with hmine | hapart
    · rw [hmine] at h
      exact absurd (Option.some.inj h).symm hne
    · exact hapart
  · simp only [Watched.notes]
    by_cases hlabel : access.1 = .task_set
    · rw [if_pos hlabel, Function.update_of_ne hne]
    · rw [if_neg hlabel]
  · simp only [Watched.notes]
    by_cases hlabel : access.1 = .intents
    · rw [if_pos hlabel, Function.update_of_ne hne]
    · rw [if_neg hlabel]

theorem fair_lock {lock : Option (ι × ℕ)} (hinv : (feedback library calls).inv y) :
    (feedback library calls).Fair i y { y with lock := lock } :=
  ⟨hinv, fun j _ => relied_lock j y lock⟩

/-- A call of process `i` is safe and ends in `Q`. -/
abbrev Guards {α : Type} (library : TaskSetLibrary) (calls : ι → FeedbackCall) (i : ι)
    (p : SetCall α) (Q : α → Shared ι TaskSetFiles (Watched ι) → Prop)
    (x : Shared ι TaskSetFiles (Watched ι)) : Prop :=
  Safe (feedback library calls) i p.signed Q x

variable {α : Type}

theorem guards_bind {β : Type} {p : SetCall α} {f : α → SetCall β}
    {Q : β → Shared ι TaskSetFiles (Watched ι) → Prop}
    (h : Guards library calls i p (fun a y => Guards library calls i (f a) Q y) x) :
    Guards library calls i (p.bind f) Q x := by
  unfold Guards
  rw [signed_bind]
  exact Safe.bind h

variable {l : AccessName} {f : TaskSetFiles → TaskSetFiles}

theorem guards_access
    {k : TaskSetFiles → SetCall α} {Q : α → Shared ι TaskSetFiles (Watched ι) → Prop}
    (h : ∀ y, Relied i x y → (undisturbed library calls).permits i (l, f) y.store y.ghost = true →
      Advance y.store (f y.store) ∧
        (y.ghost.holder .task_set = some i ∨ Apart y.store (f y.store)) ∧
        Guards library calls i (k y.store) Q (next i (l, f) y)) :
    Guards library calls i (.access l f k) Q x := by
  intro y hy _ hpermit
  obtain ⟨hadvance, halone, hrest⟩ := h y hy hpermit
  have hfree : free l.locking y.ghost.holder = true := by
    have hall : (undisturbed library calls).permits i (l, f) y.store y.ghost = true := hpermit
    simp only [undisturbed, Bool.and_eq_true] at hall
    exact hall.1.1
  exact ⟨fair_access hfree hadvance halone, hrest⟩

theorem guards_ofExcept {e : Except ValueError α} {Q : α → Shared ι TaskSetFiles (Watched ι) → Prop}
    (h : ∀ a, e = .ok a → ∀ y, Relied i x y → Q a y) :
    Guards library calls i (ofExcept e) Q x := by
  cases e with
  | error e => exact trivial
  | ok a => exact fun y hy _ => h a rfl y hy

/-- Lasts through the accesses of the others, and through own ones to intents and clock. -/
structure Steadfast (i : ι) (K : Shared ι TaskSetFiles (Watched ι) → Prop) : Prop where
  later : ∀ {y z}, K y → Relied i y z → K z
  access : ∀ {y l f}, l.locking = .apart → Apart y.store (f y.store) → K y → K (next i (l, f) y)

theorem steadfast_true (i : ι) : Steadfast i fun _ => True :=
  { later := fun _ _ => trivial
    access := fun _ _ _ => trivial }

/-- Process `i` holds the lock of the task set, and this is the record. -/
structure Holds (i : ι) (record : TaskSetRecord) (x : Shared ι TaskSetFiles (Watched ι)) :
    Prop where
  lock : x.ghost.holder .task_set = some i
  record : x.store.task_set = some record

/-- These are the intents as process `i` has last seen them. -/
abbrev Saw (i : ι) (intents : Option (List ClosureIntent))
    (x : Shared ι TaskSetFiles (Watched ι)) : Prop :=
  x.ghost.seen i = intents

theorem holder_apart (hl : l.locking = .apart) :
    (next i (l, f) y).ghost.holder = y.ghost.holder := by
  simp only [Watched.notes, hl, holders]

theorem holds_access {record : TaskSetRecord} (hl : l.locking = .apart)
    (hf : (f y.store).task_set = y.store.task_set) (h : Holds i record y) :
    Holds i record (next i (l, f) y) :=
  { lock := by rw [holder_apart hl, h.lock]
    record := hf.trans h.record }

theorem steadfast_holds (i : ι) (record : TaskSetRecord) : Steadfast i (Holds i record) :=
  { later := fun {y z} h hyz => by
      have hapart := hyz.alone h.lock
      have hrecord : z.store.task_set = y.store.task_set := hapart ▸ rfl
      exact ⟨hyz.holds _ h.lock, hrecord.trans h.record⟩
    access := fun {y l f} hl hapart h => by
      have hrecord : (f y.store).task_set = y.store.task_set := hapart ▸ rfl
      exact holds_access hl hrecord h }

variable {K : Shared ι TaskSetFiles (Watched ι) → Prop}

theorem guards_look {k : TaskSetFiles → SetCall α}
    {Q : α → Shared ι TaskSetFiles (Watched ι) → Prop} (hK : Steadfast i K)
    (hl : l.locking = .apart) (hx : K x) (h : ∀ y, K y → K (next i (l, id) y) →
      Guards library calls i (k y.store) Q (next i (l, id) y)) :
    Guards library calls i (.access l id k) Q x := by
  apply guards_access
  intro y hy _
  have hnow := hK.later hx hy
  have hnext : K (next i (l, id) y) := hK.access hl (apart_refl _) hnow
  exact ⟨advance_refl _, Or.inr (apart_refl _), h y hnow hnext⟩

def Looks (l : AccessName) (f : TaskSetFiles → TaskSetFiles) : Prop := l.locking = .apart ∧ f = id

theorem guards_looks {p : SetCall α} (hK : Steadfast i K) (hp : p.Each Looks)
    (hx : K x) : Guards library calls i p (fun _ => K) x := by
  refine Safe.of_each (C := feedback library calls) (K := K) ?_ ?_ ?_ hp.signed hx
  · rintro ⟨l, g⟩ f ⟨rfl, hl, rfl⟩ y _ hy
    have hfree : free l.locking y.ghost.holder = true := by rw [hl]; rfl
    exact ⟨fair_access hfree (advance_refl _) (Or.inr (apart_refl _)),
      hK.access hl (apart_refl _) hy⟩
  · intro y lock hinv hy
    exact ⟨fair_lock hinv, hK.later hy (relied_lock i y lock)⟩
  · exact fun y z hy hyz => hK.later hy hyz

def OffRecord (l : AccessName) (f : TaskSetFiles → TaskSetFiles) : Prop :=
  l.locking = .apart ∧ ∀ w, (f w).task_set = w.task_set ∧ (f w).intents = w.intents

theorem guards_offRecord {p : SetCall α} {record : TaskSetRecord}
    (hp : p.Each OffRecord) (hx : Holds i record x) :
    Guards library calls i p (fun _ => Holds i record) x := by
  refine Safe.of_each (C := feedback library calls) (K := Holds i record) ?_ ?_ ?_ hp.signed hx
  · rintro ⟨l, g⟩ f ⟨rfl, hl, hg⟩ y _ hy
    have hfree : free l.locking y.ghost.holder = true := by rw [hl]; rfl
    have hadvance : Advance y.store (g y.store) := advance_of_same (hg _).1 (hg _).2
    exact ⟨fair_access hfree hadvance (Or.inl hy.lock), holds_access hl (hg _).1 hy⟩
  · intro y lock hinv hy
    exact ⟨fair_lock hinv, (steadfast_holds i record).later hy (relied_lock i y lock)⟩
  · exact fun y z hy hyz => (steadfast_holds i record).later hy hyz

variable {record' : TaskSetRecord}

theorem guards_write_task_set {record : TaskSetRecord} (hx : Holds i record x)
    (hfollows : Follows record record') :
    Guards library calls i (write_task_set record') (fun _ => Holds i record') x := by
  apply guards_access
  intro y hy _
  have hnow := (steadfast_holds i record).later hx hy
  refine ⟨?_, Or.inl hnow.lock, ?_⟩
  · refine { record := fun found hfound => ?_, intents := nothingLost_refl _ }
    have hsame : record = found := Option.some.inj (hnow.record.symm.trans hfound)
    exact ⟨record', rfl, hsame ▸ hfollows⟩
  · have hwritten : Holds i record' (next i (.task_set,
        fun w : TaskSetFiles => { w with task_set := some record' }) y) :=
      { lock := hnow.lock
        record := rfl }
    exact fun z hz _ => (steadfast_holds i record').later hwritten hz

theorem guards_find_task_set (hK : Steadfast i K)
    (hlock : ∀ y, K y → y.ghost.holder .task_set = some i) (hx : K x) :
    Guards library calls i find_task_set (fun record y => Holds i record y ∧ K y) x := by
  apply guards_look hK rfl hx
  intro y hy hnext
  apply guards_ofExcept
  intro record hrecord z hz
  have hfound : y.store.task_set = some record := by
    simp only [bind_ok, valueOr_ok, pure_ok] at hrecord
    obtain ⟨found, hfound, _, _, rfl⟩ := hrecord
    exact hfound
  have hholds : Holds i record (next i (.task_set, id) y) :=
    { lock := hlock _ hnext
      record := hfound }
  exact ⟨(steadfast_holds i record).later hholds hz, hK.later hnext hz⟩

theorem guards_now (hK : Steadfast i K) {intents : Option (List ClosureIntent)} (hx : K x)
    (hsaw : Saw i intents x) :
    Guards library calls i now (fun _ y => K y ∧ Saw i intents y) x := by
  apply guards_access
  intro y hy _
  have hnow := hK.later hx hy
  have hapart : Apart y.store { y.store with clock := y.store.clock + 1 } := rfl
  refine ⟨advance_of_same rfl rfl, Or.inr hapart, ?_⟩
  intro z hz _
  refine ⟨hK.later (hK.access rfl hapart hnow) hz, ?_⟩
  have hseen : z.ghost.seen i = y.ghost.seen i := hz.seen
  exact hseen.trans (hy.seen.trans hsaw)

theorem guards_read_intents (hK : Steadfast i K) (hx : K x) :
    Guards library calls i (read .intents TaskSetFiles.intents)
      (fun intents y => K y ∧ Saw i intents y) x := by
  apply guards_look hK rfl hx
  intro y _ hnext z hz _
  refine ⟨hK.later hnext hz, ?_⟩
  have hseen : z.ghost.seen i = (next i (.intents, id) y).ghost.seen i := hz.seen
  rw [Saw, hseen]
  simp only [Watched.notes, if_true, Function.update_self]

/-- **Intents that a process writes where nobody else has written them keep those that it has
read.** -/
theorem guards_write_intents (hK : Steadfast i K) {intents : Option (List ClosureIntent)}
    {written : List ClosureIntent} (hx : K x) (hsaw : Saw i intents x)
    (hkept : NothingLost (intents.getD []) written) :
    Guards library calls i (write_intents written) (fun _ => K) x := by
  apply guards_access
  intro y hy hpermit
  have hnow := hK.later hx hy
  have hseen : y.ghost.seen i = intents := hy.seen.trans hsaw
  have hapart : Apart y.store { y.store with intents := some written } := rfl
  refine ⟨?_, Or.inr hapart, fun z hz _ => hK.later (hK.access rfl hapart hnow) hz⟩
  simp only [undisturbed, Bool.and_eq_true, decide_eq_true_eq] at hpermit
  rcases hpermit.2 with hsame | hfresh
  · exact advance_of_same rfl hsame
  · refine { record := fun record h => ⟨record, h, follows_refl record⟩, intents := ?_ }
    rw [← hfresh, hseen]
    exact hkept

theorem guards_file_lock {name : LockName} {p : SetCall α}
    {Q : α → Shared ι TaskSetFiles (Watched ι) → Prop} (hQ : ∀ a, Steadfast i (Q a))
    (hgiven : ∀ a y, Q a y → Q a (next i (.unlock name, id) y)) (h : ∀ y, Relied i x y →
      (undisturbed library calls).permits i (.lock name, id) y.store y.ghost = true →
      Guards library calls i p Q (next i (.lock name, id) y)) :
    Guards library calls i (file_lock name p) Q x := by
  refine safe_within (C := feedback library calls) ?_ (fun a y z => (hQ a).later) hgiven ?_
  · exact fun y _ => fair_access rfl (advance_refl _) (Or.inr (apart_refl _))
  · intro y hy _ hpermit
    refine ⟨?_, h y hy hpermit⟩
    have hall : (undisturbed library calls).permits i (.lock name, id) y.store y.ghost = true :=
      hpermit
    simp only [undisturbed, Bool.and_eq_true] at hall
    exact fair_access hall.1.1 (advance_refl _) (Or.inr (apart_refl _))

abbrev Mine (i : ι) (y : Shared ι TaskSetFiles (Watched ι)) : Prop :=
  y.ghost.holder .task_set = some i

theorem steadfast_mine (i : ι) : Steadfast i (Mine i) :=
  { later := fun h hyz => hyz.holds _ h
    access := fun hl _ h => (congrFun (holder_apart hl) _).trans h }

theorem mine_next (y : Shared ι TaskSetFiles (Watched ι)) :
    Mine i (next i (.lock .task_set, id) y) := by
  simp only [Mine, Watched.notes, AccessName.locking, holders, Function.update_self]

theorem each_find_task_set : find_task_set.Each Looks := each_inspect ⟨rfl, rfl⟩

theorem each_now : now.Each OffRecord := ⟨⟨rfl, fun _ => ⟨rfl, rfl⟩⟩, fun _ => trivial⟩

theorem guards_seq {β : Type} {p : SetCall α} {f : α → SetCall β} {record : TaskSetRecord}
    {Q : β → Shared ι TaskSetFiles (Watched ι) → Prop}
    (hp : Guards library calls i p (fun _ => Holds i record) x)
    (h : ∀ a y, Holds i record y → Guards library calls i (f a) Q y) :
    Guards library calls i (p.bind f) Q x :=
  guards_bind (hp.mono fun a y _ hy => h a y hy)

theorem guards_replace {record : TaskSetRecord} (hx : Holds i record x)
    (hfollows : Follows record record') (a : α) :
    Guards library calls i ((write_task_set record').bind fun _ => ret a) (fun _ _ => True) x :=
  guards_seq (guards_write_task_set hx hfollows) fun _ _ _ _ _ _ => trivial

theorem becomes_staled (current_revision at_ : ℕ) (intent : ClosureIntent) :
    intent.Becomes (intent.staled current_revision at_) := by
  unfold ClosureIntent.staled
  by_cases h : intent.task_set_revision = current_revision ∧
      intent.status = .pending_planner_backfill
  · rw [if_pos h]
    exact Or.inr ⟨h.2, rfl⟩
  · rw [if_neg h]
    exact becomes_refl intent

theorem guards_stale_open_intents {record : TaskSetRecord} (current_revision : ℕ)
    (hx : Holds i record x) :
    Guards library calls i (stale_open_intents current_revision) (fun _ => Holds i record) x := by
  have hholds := steadfast_holds i record
  refine guards_bind (Safe.mono (guards_read_intents hholds hx) fun intents y _ hy => ?_)
  cases intents with
  | none => exact fun z hz _ => hholds.later hy.1 hz
  | some intents =>
    refine guards_bind (Safe.mono (guards_now hholds hy.1 hy.2) fun at_ z _ hz => ?_)
    have hkept : NothingLost intents (intents.map (ClosureIntent.staled current_revision at_)) :=
      nothingLost_map fun intent _ => becomes_staled current_revision at_ intent
    by_cases hchanged : intents.map (ClosureIntent.staled current_revision at_) ≠ intents
    · simp only [if_pos hchanged]
      exact guards_write_intents hholds hz.1 hz.2 hkept
    · simp only [if_neg hchanged]
      exact fun z' hz' _ => hholds.later hz.1 hz'

theorem each_archive_closure (current_revision : ℕ) :
    (archive_closure current_revision).Each OffRecord := by
  refine Each.bind (each_read ⟨rfl, fun _ => ⟨rfl, rfl⟩⟩) fun closure => ?_
  cases closure with
  | none => trivial
  | some closure =>
    refine Each.bind (each_read ⟨rfl, fun _ => ⟨rfl, rfl⟩⟩) fun archived => ?_
    cases archived with
    | none => exact each_write ⟨rfl, fun _ => ⟨rfl, rfl⟩⟩
    | some archived =>
      exact Each.bind (each_ofExcept _) fun _ => each_write ⟨rfl, fun _ => ⟨rfl, rfl⟩⟩

theorem each_plan_task_fn (task_id : Segment)
    (command : MemberRecord → Except ValueError MemberOutcome) :
    (plan_task_fn task_id command).Each OffRecord := by
  refine ⟨⟨rfl, fun w => ?_⟩, fun w => each_ofExcept _⟩
  simp only
  cases plan_task task_id command w.tasks with
  | error e | ok tasks => exact ⟨rfl, rfl⟩

theorem each_rebind_tasks (record : TaskSetRecord) (new_revision : ℕ) (new_children : Children) :
    (rebind_tasks record new_revision new_children).Each OffRecord := by
  have hunbind : ∀ children, (unbind_children record children).Each OffRecord := fun children =>
    Each.forEach fun child => Each.bind each_now fun at_ => each_plan_task_fn _ _
  have hbind : ∀ task_set_id children,
      (bind_children task_set_id new_revision children).Each OffRecord := fun _ _ =>
    Each.forEach fun child => Each.bind each_now fun at_ => each_plan_task_fn _ _
  refine Each.bind (hunbind _) fun _ => ?_
  refine Each.bind (each_inspect ⟨rfl, fun _ => ⟨rfl, rfl⟩⟩) fun source_task => ?_
  refine Each.bind (Each.bind each_now fun at_ => each_plan_task_fn _ _) fun _ => ?_
  exact hbind _ _

/-- **A revision is safe.** -/
theorem guards_revise_task_set_authority (expected_revision : ℕ) (requests : List ChildRequest) :
    Guards library calls i (revise_task_set_authority expected_revision requests)
      (fun _ _ => True) x := by
  refine guards_bind (Safe.mono (guards_looks (steadfast_true i) each_find_task_set trivial)
    fun _ y _ _ => ?_)
  refine guards_file_lock (fun _ => steadfast_true i) (fun _ _ _ => trivial) fun z _ _ => ?_
  refine guards_bind (Safe.mono (guards_find_task_set (steadfast_mine i) (fun _ h => h)
    (mine_next z)) fun record y _ hy => ?_)
  have hholds := steadfast_holds i record
  refine guards_seq (guards_ofExcept fun _ _ z hz => hholds.later hy.1 hz) fun _ y hy => ?_
  refine guards_seq (guards_offRecord (each_inspect ⟨rfl, fun _ => ⟨rfl, rfl⟩⟩) hy)
    fun new_children y hy => ?_
  refine guards_seq (guards_offRecord (each_archive_closure _) hy) fun _ y hy => ?_
  refine guards_seq (guards_offRecord each_now hy) fun at_ y hy => ?_
  -- being revised counts as finished: nothing but the next revision leads out of it
  have hrevising : Follows record { record with
      state := .revising (record.task_set_revision + 1) new_children
      updated_at := at_ } := Or.inr ⟨rfl, fun _ => rfl⟩
  refine guards_seq (guards_write_task_set hy hrevising) fun _ y hy => ?_
  refine guards_seq (guards_stale_open_intents _ hy) fun _ y hy => ?_
  refine guards_seq (guards_offRecord (each_rebind_tasks _ _ _) hy) fun _ y hy => ?_
  refine guards_seq (guards_offRecord each_now hy) fun at_' y hy => ?_
  have hrevised : Follows { record with
      state := .revising (record.task_set_revision + 1) new_children
      updated_at := at_ }
      (revised_task_set record (record.task_set_revision + 1) new_children at_') :=
    Or.inl (Nat.lt_succ_self record.task_set_revision)
  exact guards_replace hy hrevised _

variable (library calls) in
/-- Process `i` evaluates under the lock of the task set, and since it looked nothing has been
settled. -/
structure Unsettled (i : ι) (looked : TaskSetRecord)
    (x : Shared ι TaskSetFiles (Watched ι)) : Prop where
  lock : Mine i x
  unsettled : settled_meanwhile library (some looked) x.store = false

theorem settled_meanwhile_apart {looked : Option TaskSetRecord}
    (h : Apart w w') : settled_meanwhile library looked w' = settled_meanwhile library looked w :=
  h ▸ rfl

theorem steadfast_unsettled (i : ι) (looked : TaskSetRecord) :
    Steadfast i (Unsettled library i looked) :=
  { later := fun h hyz =>
      ⟨(steadfast_mine i).later h.lock hyz,
        (settled_meanwhile_apart (hyz.alone h.lock)).trans h.unsettled⟩
    access := fun hl hapart h =>
      ⟨(steadfast_mine i).access hl hapart h.lock,
        (settled_meanwhile_apart hapart).trans h.unsettled⟩ }

/-- A record whose children are at their ends is not finished, unless it has been settled
meanwhile. -/
theorem unfinished_of_unsettled {looked record : TaskSetRecord}
    {evidence : List ChildEvidence} (hrecord : w.task_set = some record)
    (hunsettled : settled_meanwhile library (some looked) w = false)
    (hrevision : record.task_set_revision = looked.task_set_revision)
    (hrevising : record.state.is_revising = false)
    (hevidence : required_evidence library w.tasks w.terminal record.plan_slug
      record.children.val = .ok evidence)
    (hterminal : evidence.any ChildEvidence.is_pending = false) :
    is_finished record.state = false := by
  have hall : all_terminal library w record = true := by
    simp only [all_terminal, hevidence, hterminal, Bool.not_false]
  simp only [settled_meanwhile, hrecord, hrevision, hall, decide_true, Bool.and_true] at hunsettled
  rw [is_finished, hunsettled, hrevising, Bool.or_false]

theorem follows_of_unfinished {record : TaskSetRecord}
    (hunfinished : is_finished record.state = false)
    (hrevision : record'.task_set_revision = record.task_set_revision) :
    Follows record record' := by
  right
  refine ⟨hrevision, fun h => ?_⟩
  rw [hunfinished] at h
  cases h

theorem guards_evaluate_failures {record : TaskSetRecord} (evidence : List ChildEvidence)
    (hunfinished : is_finished record.state = false) (hx : Holds i record x) :
    Guards library calls i (evaluate_failures library record evidence) (fun _ _ => True) x := by
  refine guards_seq (guards_offRecord each_now hx) fun at_ y hy => ?_
  refine guards_seq (guards_offRecord (each_write ⟨rfl, fun _ => ⟨rfl, rfl⟩⟩) hy) fun _ y hy => ?_
  refine guards_seq (guards_offRecord each_now hy) fun at_' y hy => ?_
  refine guards_replace hy ?_ _
  exact follows_of_unfinished hunfinished rfl

theorem each_ensure_closure (record : TaskSetRecord) (evidence : List ChildEvidence)
    (aggregate_result : RoundResult) (reason : String) :
    (ensure_closure library record evidence aggregate_result reason).Each OffRecord := by
  refine Each.bind (each_read ⟨rfl, fun _ => ⟨rfl, rfl⟩⟩) fun existing => ?_
  refine Each.bind (each_ofExcept _) fun _ => ?_
  cases existing.filter fun closure => closure.content.status ≠ .system_failure with
  | some closure => exact Each.bind (each_ofExcept _) fun _ => trivial
  | none =>
    refine Each.bind each_now fun at_ => ?_
    exact Each.bind (each_write ⟨rfl, fun _ => ⟨rfl, rfl⟩⟩) fun _ => trivial

theorem guards_ensure_closure_intent {record : TaskSetRecord} (closure : Closure)
    (hx : Holds i record x) :
    Guards library calls i (ensure_closure_intent library record closure)
      (fun _ => Holds i record) x := by
  have hholds := steadfast_holds i record
  refine guards_bind (Safe.mono (guards_read_intents hholds hx) fun intents y _ hy => ?_)
  refine guards_bind (guards_ofExcept fun found _ z hz => ?_)
  have hsaw : Saw i intents z := hz.seen.trans hy.2
  cases found with
  | some intent => exact fun z' hz' _ => hholds.later (hholds.later hy.1 hz) hz'
  | none =>
    refine guards_bind (Safe.mono (guards_now hholds (hholds.later hy.1 hz) hsaw)
      fun at_ z' _ hz' => ?_)
    refine guards_seq (guards_write_intents hholds hz'.1 hz'.2 (nothingLost_append _ _))
      fun _ v hv => ?_
    exact fun v' hv' _ => hholds.later hv hv'

theorem guards_evaluate_terminal {record : TaskSetRecord} (evidence : List ChildEvidence)
    (hunfinished : is_finished record.state = false) (hx : Holds i record x) :
    Guards library calls i (evaluate_terminal library record evidence) (fun _ _ => True) x := by
  refine guards_seq (guards_offRecord (each_ofExcept _) hx) fun aggregate y hy => ?_
  refine guards_seq (guards_offRecord (each_ensure_closure _ _ _ _) hy) fun closure y hy => ?_
  refine guards_seq (guards_ensure_closure_intent _ hy) fun intent y hy => ?_
  refine guards_seq (guards_offRecord each_now hy) fun at_ y hy => ?_
  refine guards_replace hy ?_ _
  exact follows_of_unfinished hunfinished rfl

theorem steadfast_looked (i : ι) (looked : TaskSetRecord) :
    Steadfast i fun y : Shared ι TaskSetFiles (Watched ι) => y.ghost.looked i = some looked :=
  { later := fun h hyz => hyz.looked.trans h
    access := fun {y l f} _ _ h => by
      simp only [Watched.notes]
      by_cases hl : l = .task_set
      · rw [if_pos hl, Function.update_self, h]
        rfl
      · rw [if_neg hl, h] }

theorem unsettled_of_permits {looked : TaskSetRecord}
    (hcall : (calls i).evaluates = true) (hlooked : y.ghost.looked i = some looked)
    (hpermit : (undisturbed library calls).permits i (.lock .task_set, id) y.store y.ghost = true) :
    settled_meanwhile library (some looked) y.store = false := by
  simp only [undisturbed, hcall, hlooked, Bool.and_eq_true, Bool.not_eq_true',
    decide_true, Bool.true_and] at hpermit
  exact hpermit.1.2

/-- **An evaluation is safe for a process that has looked at the record.** -/
theorem guards_evaluate_task_set_closure {looked : TaskSetRecord}
    (hcall : (calls i).evaluates = true) (hlooked : x.ghost.looked i = some looked) :
    Guards library calls i (evaluate_task_set_closure library (some looked.task_set_revision))
      (fun _ _ => True) x := by
  have hlook : Steadfast i fun y : Shared ι TaskSetFiles (Watched ι) =>
      y.ghost.looked i = some looked :=
    steadfast_looked i looked
  refine guards_bind (Safe.mono (guards_looks hlook each_find_task_set hlooked) fun _ y _ hy => ?_)
  refine guards_file_lock (fun _ => steadfast_true i) (fun _ _ _ => trivial) fun z hz hpermit => ?_
  have hopen : settled_meanwhile library (some looked) z.store = false :=
    unsettled_of_permits hcall (hz.looked.trans hy) hpermit
  have hunsettled : Unsettled library i looked (next i (.lock .task_set, id) z) :=
    { lock := mine_next z
      unsettled := hopen }
  have hsteady : Steadfast i (Unsettled library i looked) := steadfast_unsettled i looked
  refine guards_bind (Safe.mono (guards_find_task_set hsteady (fun _ h => h.lock) hunsettled)
    fun record y _ hy => ?_)
  have hboth : Steadfast i fun y => Holds i record y ∧ Unsettled library i looked y :=
    { later := fun h hyz => ⟨(steadfast_holds i record).later h.1 hyz, hsteady.later h.2 hyz⟩
      access := fun hl hapart h =>
        ⟨(steadfast_holds i record).access hl hapart h.1, hsteady.access hl hapart h.2⟩ }
  refine guards_bind (guards_ofExcept fun _ hrevision v hv => ?_)
  have hrevision : record.task_set_revision = looked.task_set_revision := by
    have hexpected := refuseIf_ok.mp hrevision
    simp only [Option.any_some, decide_eq_true_eq, not_not] at hexpected
    exact hexpected.symm
  by_cases hrevising : record.state.is_revising = true
  · rw [if_pos hrevising]
    exact fun _ _ _ => trivial
  rw [if_neg hrevising]
  refine guards_look hboth rfl (hboth.later hy hv) fun y hy hnext => ?_
  refine guards_bind (guards_ofExcept fun evidence hevidence u hu => ?_)
  have hholds : Holds i record u := (steadfast_holds i record).later hnext.1 hu
  unfold evaluate_evidence
  by_cases hpending : evidence.any ChildEvidence.is_pending = true
  · rw [if_pos hpending]
    exact fun _ _ _ => trivial
  have hunfinished : is_finished record.state = false :=
    unfinished_of_unsettled hy.1.record hy.2.unsettled hrevision (Bool.eq_false_iff.mpr hrevising)
      hevidence (Bool.eq_false_iff.mpr hpending)
  rw [if_neg hpending]
  by_cases hfailure : evidence.any ChildEvidence.is_system_failure = true
  · rw [if_pos hfailure]
    exact guards_evaluate_failures evidence hunfinished hholds
  · rw [if_neg hfailure]
    exact guards_evaluate_terminal evidence hunfinished hholds

theorem each_find_pending : find_pending_task_set_closures.Each Looks := by
  refine Each.bind (each_read ⟨rfl, rfl⟩) fun intents => ?_
  cases intents with
  | none => trivial
  | some intents => exact Each.bind each_find_task_set fun _ => trivial

theorem guards_discovered {evaluation : Option Evaluation} :
    Guards library calls i (find_pending_task_set_closures.bind fun closures =>
      ret (closures, evaluation)) (fun _ _ => True) x :=
  guards_bind (Safe.mono (guards_looks (steadfast_true i) each_find_pending trivial)
    fun _ _ _ _ _ _ _ => trivial)

theorem guards_evaluate_current (hcall : (calls i).evaluates = true)
    (hlooked : x.ghost.looked i = none) :
    Guards library calls i (evaluate_current_task_set_closures library) (fun _ _ => True) x := by
  apply guards_access
  intro y hy _
  refine ⟨advance_refl _, Or.inr (apart_refl _), ?_⟩
  have hnone : y.ghost.looked i = none := hy.looked.trans hlooked
  have hnext : (next i (.task_set, id) y).ghost.looked i = y.store.task_set := by
    simp only [Watched.notes, if_true, Function.update_self, hnone, Option.none_or]
  simp only [ret_bind]
  cases hrecord : y.store.task_set with
  | none => exact guards_discovered
  | some looked =>
    rw [hrecord] at hnext
    refine guards_bind (guards_ofExcept fun _ _ z hz => ?_)
    have hseen : z.ghost.looked i = some looked := (steadfast_looked i looked).later hnext hz
    by_cases hopen : looked.state ∈ [TaskSetState.running, .closure_pending, .system_failure]
    · rw [if_pos hopen]
      exact guards_bind (Safe.mono (guards_evaluate_task_set_closure hcall hseen)
        fun _ _ _ _ => guards_discovered)
    · rw [if_neg hopen]
      exact guards_discovered

theorem follows_settled {record : TaskSetRecord} {result : RoundResult}
    (hrevision : record'.task_set_revision = record.task_set_revision)
    (hstate : record'.state = settled_state result) : Follows record record' := by
  right
  refine ⟨hrevision, fun _ => ?_⟩
  rw [hstate]
  cases result <;> rfl

theorem guards_locked_intents {record : TaskSetRecord} (hx : Holds i record x) :
    Guards library calls i (file_lock .closure_intents do
      return (← read .intents TaskSetFiles.intents).getD []) (fun _ => Holds i record) x := by
  have hholds := steadfast_holds i record
  refine guards_file_lock (fun _ => hholds) (fun _ y hy => ?_) fun y hy _ => ?_
  · refine { lock := ?_, record := hy.record }
    exact (holders_gives_of_ne (by decide)).trans hy.lock
  · have hnow := hholds.later hx hy
    have hlocked : Holds i record (next i (.lock .closure_intents, id) y) := by
      refine { lock := ?_, record := hnow.record }
      simp only [Watched.notes, AccessName.locking, holders]
      rw [Function.update_of_ne (by decide), hnow.lock]
    exact guards_bind (Safe.mono (guards_read_intents hholds hlocked)
      fun _ _ _ hz _ hz' _ => hholds.later hz.1 hz')

/-- What `settle_task_set` does once the settlement is written. -/
def settle_parent_and_record (record : TaskSetRecord) (closure : Closure)
    (transport_ref : TransportRef) : SetCall Unit := do
  let result ← ofExcept (valueOr closure.content.aggregate_result
    ⟨"task-set parent aggregate result invalid"⟩)
  let at_ ← now
  plan_task_fn record.source_task_id (settle_task_set_parent
    (settle_parent_command record closure result transport_ref at_))
  if record.state = .closure_pending then do
    write_task_set { record with
      state := settled_state result
      aggregate_result := some result
      updated_at := ← now }
  else ofExcept (refuseIf (record.state ≠ settled_state result)
    ⟨"task-set closure settlement state conflict"⟩)

theorem guards_settle_parent_and_record {record : TaskSetRecord} (closure : Closure)
    (transport_ref : TransportRef) (hx : Holds i record x) :
    Guards library calls i (settle_parent_and_record record closure transport_ref)
      (fun _ _ => True) x := by
  refine guards_seq (guards_offRecord (each_ofExcept _) hx) fun result y hy => ?_
  refine guards_seq (guards_offRecord each_now hy) fun at_ y hy => ?_
  refine guards_seq (guards_offRecord (each_plan_task_fn _ _) hy) fun _ y hy => ?_
  by_cases hpending : record.state = .closure_pending
  · rw [if_pos hpending]
    refine guards_seq (guards_offRecord each_now hy) fun at_' y hy => ?_
    refine Safe.mono (guards_write_task_set hy ?_) fun _ _ _ _ => trivial
    exact follows_settled rfl rfl
  · rw [if_neg hpending]
    exact guards_ofExcept fun _ _ _ _ => trivial

theorem guards_settle_task_set (command : SettleFeedback) (basis : SettlementBasis)
    (hx : Mine i x) :
    Guards library calls i (settle_task_set library command basis) (fun _ _ => True) x := by
  refine guards_bind (Safe.mono (guards_find_task_set (steadfast_mine i) (fun _ h => h) hx)
    fun record y _ hy => ?_)
  have hy := hy.1
  refine guards_seq (guards_offRecord (each_inspect ⟨rfl, fun _ => ⟨rfl, rfl⟩⟩) hy)
    fun closure y hy => ?_
  refine guards_seq (guards_offRecord (each_ofExcept _) hy) fun _ y hy => ?_
  refine guards_seq (guards_locked_intents hy) fun intents y hy => ?_
  refine guards_seq (guards_offRecord (each_ofExcept _) hy) fun _ y hy => ?_
  refine guards_seq (guards_offRecord (each_read ⟨rfl, fun _ => ⟨rfl, rfl⟩⟩) hy)
    fun existing y hy => ?_
  cases existing with
  | some existing =>
    refine guards_seq (guards_offRecord (each_ofExcept _) hy) fun _ y hy => ?_
    exact guards_settle_parent_and_record closure basis.transport_ref hy
  | none =>
    refine guards_seq (guards_offRecord (each_write ⟨rfl, fun _ => ⟨rfl, rfl⟩⟩) hy) fun _ y hy => ?_
    exact guards_settle_parent_and_record closure basis.transport_ref hy

theorem nothingLost_closed {intents : List ClosureIntent} {intent_id : Segment}
    {intent : ClosureIntent} (h : the_intent intent_id intents = .ok intent)
    (hpending : intent.status = .pending_planner_backfill) (transport_ref : TransportRef)
    (at_ : ℕ) :
    NothingLost intents (intents.map fun item =>
      if item.intent_id = intent_id then intent.closed transport_ref at_ else item) := by
  have hone : intents.filter (fun item => item.intent_id = intent_id) = [intent] := by
    unfold the_intent at h
    split at h
    · rename_i found hfound
      rw [hfound, Except.ok.inj h]
    · cases h
  apply nothingLost_map
  intro item hitem
  by_cases hid : item.intent_id = intent_id
  · have hmem : item ∈ intents.filter (fun item => item.intent_id = intent_id) :=
      List.mem_filter.mpr ⟨hitem, decide_eq_true hid⟩
    rw [hone, List.mem_singleton] at hmem
    rw [if_pos hid, hmem]
    exact Or.inr ⟨hpending, rfl⟩
  · rw [if_neg hid]
    exact becomes_refl item

theorem guards_close_intent (command : SettleFeedback) (transport_ref : TransportRef) :
    Guards library calls i (close_intent command transport_ref) (fun _ _ => True) x := by
  have hK := steadfast_true (ι := ι) i
  refine guards_bind (Safe.mono (guards_read_intents hK trivial) fun intents y _ hy => ?_)
  refine guards_bind (guards_ofExcept fun intent hintent z hz => ?_)
  refine guards_bind (guards_ofExcept fun _ _ z' hz' => ?_)
  have hsaw : Saw i intents z' := hz'.seen.trans (hz.seen.trans hy.2)
  cases hstatus : intent.status with
  | feedback_closed existing at_ =>
    exact guards_bind (guards_ofExcept fun _ _ _ _ _ _ _ => trivial)
  | stale at_ => trivial
  | pending_planner_backfill =>
    refine guards_bind (Safe.mono (guards_now hK trivial hsaw) fun at_ v _ hv => ?_)
    have hkept := nothingLost_closed hintent hstatus transport_ref at_
    exact guards_bind (Safe.mono (guards_write_intents hK trivial hv.2 hkept)
      fun _ _ _ _ _ _ _ => trivial)

theorem each_settlement_basis (command : SettleFeedback) :
    (settlement_basis command).Each Looks := by
  refine Each.bind each_find_task_set fun task_set => ?_
  refine Each.bind (each_ofExcept _) fun _ => ?_
  refine Each.bind (each_inspect ⟨rfl, rfl⟩) fun closure => ?_
  refine Each.bind (each_read ⟨rfl, rfl⟩) fun intents => ?_
  refine Each.bind (each_ofExcept _) fun intent => ?_
  refine Each.bind (each_ofExcept _) fun _ => ?_
  exact Each.bind (each_inspect ⟨rfl, rfl⟩) fun _ => trivial

theorem guards_settle (command : SettleFeedback) :
    Guards library calls i (settle_task_set_closure_feedback library command)
      (fun _ _ => True) x := by
  have hK := steadfast_true (ι := ι) i
  refine guards_bind (Safe.mono (guards_looks hK (each_settlement_basis command) trivial)
    fun basis y _ _ => ?_)
  have hsection : Guards library calls i (file_lock (.closure_settlement command.task_set_revision)
      (file_lock .task_set (settle_task_set library command basis))) (fun _ _ => True) y := by
    refine guards_file_lock (fun _ => hK) (fun _ _ _ => trivial) fun z _ _ => ?_
    refine guards_file_lock (fun _ => hK) (fun _ _ _ => trivial) fun z' _ _ => ?_
    exact guards_settle_task_set command basis (mine_next z')
  refine guards_bind (Safe.mono hsection fun _ z _ _ => ?_)
  exact guards_file_lock (fun _ => hK) (fun _ _ _ => trivial)
    fun z' _ _ => guards_close_intent command basis.transport_ref

theorem guards_call (hlooked : x.ghost.looked i = none) :
    Guards library calls i ((calls i).call library) (fun _ _ => True) x := by
  cases hcall : calls i with
  | evaluate_current =>
    have hevaluates : (calls i).evaluates = true := by rw [hcall]; rfl
    exact guards_bind (Safe.mono (guards_evaluate_current hevaluates hlooked)
      fun _ _ _ _ _ _ _ => trivial)
  | settle command =>
    exact guards_bind (Safe.mono (guards_settle command) fun _ _ _ _ _ _ _ => trivial)
  | revise expected_revision children =>
    exact guards_bind (Safe.mono (guards_revise_task_set_authority expected_revision children)
      fun _ _ _ _ _ _ _ => trivial)

variable {c : Processes ι} {g : Watched ι}

theorem advance_step (i : ι)
    (h : ∀ j, Safe (feedback library calls) j (c.thread j) (fun _ _ => True) (c.shared g))
    (hinv : (feedback library calls).inv (c.shared g))
    (hpermit : (undisturbed library calls).permitted i c g = true) :
    Advance c.store (c.step i).store := by
  obtain ⟨_, hnext⟩ := safe_step (P := fun _ _ _ => True) i h hinv hpermit
  cases hthread : c.thread i with
  | ret a | raise e | release k => simp only [Config.step, hthread, advance_refl]
  | acquire k =>
    simp only [Config.step, hthread]
    cases grab i c.lock with
    | none | some held => exact advance_refl _
  | access l f k =>
    have hadvance : Advance (((undisturbed library calls).watch i c g).before)
        (c.step i).store := hnext
    simpa only [Monitor.watch, hthread, undisturbed, Watched.notes] using hadvance

theorem advance_run (schedule : List ι)
    (h : ∀ j, Safe (feedback library calls) j (c.thread j) (fun _ _ => True) (c.shared g))
    (hinv : (feedback library calls).inv (c.shared g))
    (hclean : (undisturbed library calls).clean schedule c g = true) :
    Advance c.store (c.run schedule).store := by
  induction schedule generalizing c g with
  | nil => exact advance_refl _
  | cons i schedule ih =>
    simp only [Monitor.clean, Bool.and_eq_true] at hclean
    have hstep := safe_step (P := fun _ _ _ => True) i h hinv hclean.1
    exact advance_trans (advance_step i h hinv hclean.1) (ih hstep.1 hstep.2 hclean.2)

variable (library calls) in
/-- **Without interference, what is settled stays settled and no intent is lost.**  This is
about every schedule of any processes, and any two moments of it. -/
theorem settled_lasts (files : TaskSetFiles) (earlier later : List ι)
    (hclean : (undisturbed library calls).clean (earlier ++ later)
      (processes library files calls) (unwatched files) = true) :
    Lasts ((processes library files calls).run earlier).store
      ((processes library files calls).run (earlier ++ later)).store := by
  have hsafe : ∀ j, Safe (feedback library calls) j ((processes library files calls).thread j)
      (fun _ _ => True) ((processes library files calls).shared (unwatched files)) :=
    fun j => guards_call rfl
  rw [Monitor.clean_append, Bool.and_eq_true] at hclean
  obtain ⟨hsafe', hinv'⟩ := safe_run (P := fun _ _ _ => True) earlier hsafe
    (advance_refl files) hclean.1
  rw [Config.run_append]
  exact lasts_of_advance (advance_run later hsafe' hinv' hclean.2)

/-- A task set whose closure waits for the feedback of the planner. -/
def pendingFiles : TaskSetFiles :=
  run_events exampleLibrary examplePlans
    [.called (.create exampleCreation), .called (.evaluate none)] exampleFiles

def exampleSettlement : SettleFeedback :=
  { task_set_revision := 1
    intent_id := exampleSet
    ordered_terminal_evidence_digest := []
    transport_ref := { planner_feedback_digest := [], fields := [] } }

def settleAndEvaluate : Bool → FeedbackCall
  | true => .settle exampleSettlement
  | false => .evaluate_current

def settleAndRevise : Bool → FeedbackCall
  | true => .settle exampleSettlement
  | false => .revise 1 [{ task_id := exampleChild, required := true }]

/-- The evaluation begins when the settlement has written and not yet returned. -/
theorem settled_lasts_beside :
    Lasts ((processes exampleLibrary pendingFiles settleAndEvaluate).run
        (List.replicate 17 true)).store
      ((processes exampleLibrary pendingFiles settleAndEvaluate).run (List.replicate 17 true ++
        ((List.replicate 7 [false, true]).flatten ++ List.replicate 17 false))).store :=
  settled_lasts exampleLibrary settleAndEvaluate pendingFiles _ _ (by decide)

/-- The evaluation looks at the record before the settlement and writes it after. -/
def looksTooEarly : List Bool := [false] ++ List.replicate 24 true

/-- The settlement has read the intents when the revision makes them stale. -/
def readsTooEarly : List Bool := List.replicate 21 true ++ List.replicate 20 false

def stateAfter (calls : Bool → FeedbackCall) (schedule : List Bool) : Option (ℕ × TaskSetState) :=
  ((processes exampleLibrary pendingFiles calls).run schedule).store.task_set.map fun record =>
    (record.task_set_revision, record.state)

def statusAfter (calls : Bool → FeedbackCall) (schedule : List Bool) : Option IntentStatus :=
  ((((processes exampleLibrary pendingFiles calls).run schedule).store.intents.getD [])[0]?).map
    ClosureIntent.status

/-- A settled task set is pending again, and the staleness of an intent is lost. -/
theorem settlement_undone_and_change_lost :
    ((interleaving Bool).clean (looksTooEarly ++ List.replicate 24 false)
        (processes exampleLibrary pendingFiles settleAndEvaluate) (unwatched pendingFiles) = true ∧
      ¬ StaysSettled
        ((processes exampleLibrary pendingFiles settleAndEvaluate).run looksTooEarly).store
        ((processes exampleLibrary pendingFiles settleAndEvaluate).run
          (looksTooEarly ++ List.replicate 24 false)).store) ∧
    ((interleaving Bool).clean (readsTooEarly ++ List.replicate 4 true)
        (processes exampleLibrary pendingFiles settleAndRevise) (unwatched pendingFiles) = true ∧
      ¬ NothingLost
        (((processes exampleLibrary pendingFiles settleAndRevise).run
          readsTooEarly).store.intents.getD [])
        (((processes exampleLibrary pendingFiles settleAndRevise).run
          (readsTooEarly ++ List.replicate 4 true)).store.intents.getD [])) := by
  refine ⟨⟨by decide, fun h => ?_⟩, by decide, fun h => ?_⟩
  · have hsettled : stateAfter settleAndEvaluate looksTooEarly = some (1, .blocked) := by
      decide
    have hpending : stateAfter settleAndEvaluate (looksTooEarly ++ List.replicate 24 false)
        = some (1, .closure_pending) := by decide
    obtain ⟨record, hrecord, hstate⟩ := Option.map_eq_some_iff.mp hsettled
    obtain ⟨record', hrecord', hstate'⟩ := Option.map_eq_some_iff.mp hpending
    simp only [Prod.mk.injEq] at hstate hstate'
    have hkept := h record record' hrecord hrecord' (hstate'.1.trans hstate.1.symm)
      (by rw [hstate.2]; rfl)
    exact hkept.1 hstate'.2
  · have hstale : statusAfter settleAndRevise readsTooEarly = some (.stale 10) := by decide
    have hclosed : statusAfter settleAndRevise (readsTooEarly ++ List.replicate 4 true)
        = some (.feedback_closed { planner_feedback_digest := [], fields := [] } 12) := by
      decide
    obtain ⟨intent, hintent, hstatus⟩ := Option.map_eq_some_iff.mp hstale
    obtain ⟨intent', hintent', hbecomes⟩ := h 0 intent hintent
    have hstatus' : intent'.status =
        .feedback_closed { planner_feedback_digest := [], fields := [] } 12 := by
      have hmap : some intent'.status =
          some (.feedback_closed { planner_feedback_digest := [], fields := [] } 12) := by
        rw [← hclosed, statusAfter, hintent', Option.map_some]
      exact Option.some.inj hmap
    rcases hbecomes with hsame | ⟨hpending, _⟩
    · rw [hsame, hstatus] at hstatus'
      cases hstatus'
    · rw [hstatus] at hpending
      cases hpending

end ClaudeCodeBridge.Analysis.TaskSet
